import Typewright.Proofs.Api.Kept
import Typewright.Proofs.Api.Listed
import Typewright.Proofs.Pointer.Segments

/-!
# The operations that a walk meets

Visiting a path item meets its operations and those in their callbacks, each operation before its
callbacks (`PathItem.entries`), and the set that comes of the visit lists just these
(`Walk.lists_visitPathItem`).  So do the fragments that a document starts from
(`Walk.lists_documentFragments`).  An expansion adds operations only if it addresses a path item or a
callback (`Walk.lists_expand`), hence so do the passes (`Walk.Passes.exists_lists`).
-/

namespace Typewright.Api

/-! ### Operations in order -/

mutual

/-- The operations that are met by visiting a path item at a path; behind a reference object there are
    none. -/
def PathItem.entries (path : String) : PathItem → List OperationEntry
  | .mk (some _) _ _ => []
  | .mk none _ operations => entriesOfOperations path operations

/-- The operations that are met by visiting operations at a path. -/
def entriesOfOperations (path : String) : List MethodOperation → List OperationEntry
  | [] => []
  | .mk method operation :: rest =>
    OperationEntry.ofOperation path (.mk method operation) ::
      (operation.innerEntries ++ entriesOfOperations path rest)

/-- The operations that are met in the callbacks of an operation. -/
def Operation.innerEntries : Operation → List OperationEntry
  | .mk _ callbacks => entriesOfCallbacks callbacks

/-- The operations that are met by visiting callbacks. -/
def entriesOfCallbacks : List NamedCallback → List OperationEntry
  | [] => []
  | .mk _ callback :: rest => callback.entries ++ entriesOfCallbacks rest

/-- The operations that are met by visiting a callback. -/
def Callback.entries : Callback → List OperationEntry
  | .reference _ => []
  | .items items => entriesOfItems items

/-- The operations that are met by visiting path items under their expressions. -/
def entriesOfItems : List NamedItem → List OperationEntry
  | [] => []
  | .mk expression item :: rest => item.entries expression ++ entriesOfItems rest

end

/-- The callbacks of an operation. -/
def Operation.callbacks : Operation → List NamedCallback
  | .mk _ callbacks => callbacks

/-- The path items that are written in a document, each with its path. -/
def pathItems (document : Json) : List (String × PathItem) :=
  collections.flatMap fun collection =>
    ((document.entries? collection).getD []).map fun (path, item) => (path, PathItem.ofJson item)

section Entries

variable {path : String} {operations : List MethodOperation} {operation : MethodOperation}
  {item : PathItem}

theorem mem_entriesOfOperations (h : operation ∈ operations) :
    OperationEntry.ofOperation path operation ∈ entriesOfOperations path operations := by
  induction operations with
  | nil => exact absurd h List.not_mem_nil
  | cons first rest ih =>
    obtain ⟨method, inner⟩ := first
    rw [entriesOfOperations]
    rcases List.mem_cons.1 h with rfl | h
    · exact List.mem_cons_self
    · exact List.mem_cons_of_mem _ (List.mem_append_right _ (ih h))

theorem entriesOfOperations_eq_map
    (h : ∀ operation ∈ operations, operation.operation.callbacks = []) :
    entriesOfOperations path operations =
      operations.map (OperationEntry.ofOperation path) := by
  induction operations with
  | nil => rfl
  | cons first rest ih =>
    obtain ⟨method, facts, callbacks⟩ := first
    have hcallbacks : callbacks = [] := h _ List.mem_cons_self
    have hrest := ih fun operation hmem => h operation (List.mem_cons_of_mem _ hmem)
    rw [entriesOfOperations, Operation.innerEntries, hcallbacks, entriesOfCallbacks, List.nil_append,
      hrest, List.map_cons]

/-- The operations of a path item that is no reference object are met. -/
theorem PathItem.mem_entries (hreference : item.reference = none) (h : operation ∈ item.operations) :
    OperationEntry.ofOperation path operation ∈ item.entries path := by
  obtain ⟨reference, parameters, operations⟩ := item
  have hnone : reference = none := hreference
  rw [hnone, PathItem.entries]
  exact mem_entriesOfOperations h

/-- No others are met if there are no callbacks. -/
theorem PathItem.entries_eq_map (hreference : item.reference = none)
    (h : ∀ operation ∈ item.operations, operation.operation.callbacks = []) :
    item.entries path = item.operations.map (OperationEntry.ofOperation path) := by
  obtain ⟨reference, parameters, operations⟩ := item
  have hnone : reference = none := hreference
  rw [hnone, PathItem.entries]
  exact entriesOfOperations_eq_map h

/-- The operations written in a document are those of its path items. -/
theorem operationEntries_eq (document : Json) :
    operationEntries document = (pathItems document).flatMap fun (path, item) =>
      item.operations.map (OperationEntry.ofOperation path) := by
  unfold operationEntries pathItems
  rw [List.flatMap_assoc]
  simp only [List.flatMap_map]

end Entries

namespace Walk

open FragmentSet (lists_empty Lists)

open Run (gives_pure gives_bind gives_liftExcept)

variable {walk : Walk}

/-! ### Visits -/

/-- An operation is met under the identifier that is listed for it, and there is a warning if that was
    made. -/
theorem operationId_eq_entry {method : Method} {path : String} {operation : Operation}
    {named : String × FragmentSet}
    (h : walk.operationId method path operation.facts = .ok named) :
    let entry := OperationEntry.ofOperation path (.mk method operation)
    named.1 = entry.id ∧ named.2.operations = [entry.id] ∧
      named.2.warnings = if entry.synthesized then [entry.warning] else [] := by
  unfold operationId at h
  intro entry
  split at h
  · next id hid =>
    have hentry : entry.id = id ∧ entry.synthesized = false := by
      simp [entry, OperationEntry.ofOperation, MethodOperation.operation, hid]
    rw [← Except.ok.inj h, hentry.1, hentry.2]
    exact ⟨rfl, rfl, rfl⟩
  · next hnone =>
    have hentry : entry.id = synthesizedId method path ∧ entry.synthesized = true := by
      simp [entry, OperationEntry.ofOperation, MethodOperation.operation, MethodOperation.method,
        hnone]
    -- An id is made only where the options let it be made.
    split at h
    · exact absurd h (by simp)
    · rw [← Except.ok.inj h, OperationEntry.warning, hentry.1, hentry.2]
      exact ⟨rfl, rfl, rfl⟩

/-- The set of an operation lists it when input and output are added. -/
theorem lists_operation {method : Method} {path : String} {operation : Operation}
    {named : String × FragmentSet} {input output : FragmentSet}
    (hnamed : walk.operationId method path operation.facts = .ok named) (hid : named.1 ≠ "")
    (hinput : input.Lists []) (houtput : output.Lists [])
    (hdeclared : output.Declared ((walk.operationSite named.1).child "output" "Output").reference) :
    ((named.2.extend input).extend output).Lists
      [OperationEntry.ofOperation path (.mk method operation)] := by
  obtain ⟨hentry, hoperations, hwarnings⟩ := operationId_eq_entry hnamed
  refine ⟨?_, ?_, fun entry hmem => ?_⟩
  · show Text.insertAllNew (Text.insertAllNew named.2.operations input.operations)
      output.operations = _
    rw [hoperations, hinput.operations, houtput.operations]
    rfl
  -- Input and output raise no warning about an id, so only that of the operation is left.
  · show (named.2.warnings ++ input.warnings ++ output.warnings).filter Warning.isSynthesized = _
    rw [List.filter_append, List.filter_append, hinput.warnings, houtput.warnings, hwarnings]
    cases hsynthesized :
        (OperationEntry.ofOperation path (.mk method operation)).synthesized with
    | true => simp [hsynthesized, OperationEntry.warning, Warning.isSynthesized]
    | false => simp [hsynthesized]
  · have hchild : ((walk.operationSite named.1).child "output" "Output").reference =
        Pointer.join ["operations", named.1, "output"] :=
      Pointer.child_join ["operations"] hid "output"
    rw [List.mem_singleton.1 hmem, OperationEntry.outputReference, ← hentry, ← hchild]
    exact FragmentSet.declared_extend hdeclared

mutual

/-- Visiting a path item lists the operations in it. -/
theorem lists_visitPathItem (walk : Walk) (location path : String) (item : PathItem)
    (h : ∀ id, .operation id ∈ item.parts → id ≠ "") :
    (walk.visitPathItem location path item).Gives (Lists (item.entries path)) := by
  obtain ⟨reference, parameters, operations⟩ := item
  cases reference with
  -- A path item that is a reference object lists nothing; its target is announced.
  | some reference =>
    rw [visitPathItem, PathItem.entries]
    exact gives_pure (lists_empty.push _)
  | none =>
    rw [visitPathItem, PathItem.entries]
    refine lists_visitOperations walk location path _ operations (fun id hid => h id ?_) {} []
      lists_empty
    rw [PathItem.parts]
    exact List.mem_append_right _ hid
termination_by structural item

theorem lists_visitOperations (walk : Walk) (location path : String) (shared : List Located)
    (operations : List MethodOperation)
    (h : ∀ id, .operation id ∈ partsOfOperations operations → id ≠ "") (set : FragmentSet)
    (entries : List OperationEntry) (hset : set.Lists entries) :
    (walk.visitOperations location path shared operations set).Gives
      (Lists (entries ++ entriesOfOperations path operations)) := by
  cases operations with
  | nil =>
    rw [visitOperations, entriesOfOperations, List.append_nil]
    exact gives_pure hset
  | cons each rest =>
    obtain ⟨method, operation⟩ := each
    rw [visitOperations, entriesOfOperations]
    refine gives_bind (lists_visitOperation walk _ method path shared operation
      fun id hid => h id (List.mem_append_left _ hid)) fun visited hvisited => ?_
    have hrest := lists_visitOperations walk location path shared rest
      (fun id hid => h id (List.mem_append_right _ hid)) _ _ (hset.extend hvisited)
    rwa [List.append_assoc, List.cons_append] at hrest
termination_by structural operations

/-- An operation comes before those in its callbacks. -/
theorem lists_visitOperation (walk : Walk) (location : String) (method : Method) (path : String)
    (shared : List Located) (operation : Operation)
    (h : ∀ id, .operation id ∈ operation.parts → id ≠ "") :
    (walk.visitOperation location method path shared operation).Gives
      (Lists (OperationEntry.ofOperation path (.mk method operation) :: operation.innerEntries)) := by
  obtain ⟨facts, callbacks⟩ := operation
  rw [visitOperation, Operation.innerEntries]
  refine gives_bind (gives_liftExcept fun named hnamed => hnamed) fun named hnamed => ?_
  -- An empty identifier would move the output up to the reference of all operations.
  have hid : named.1 ≠ "" :=
    (operationId_eq_ok (fun id hid => h id (List.mem_append_left _ hid)) hnamed).1
  refine gives_bind lists_operationInput fun input hinput => ?_
  refine gives_bind lists_operationOutput fun output houtput => ?_
  have hset : ((named.2.extend input).extend output).Lists
      [OperationEntry.ofOperation path (.mk method (.mk facts callbacks))] :=
    lists_operation hnamed hid hinput houtput.1 houtput.2
  exact lists_visitCallbacks walk _ callbacks
    (fun id hid => h id (List.mem_append_right _ hid)) _ _ hset
termination_by structural operation

theorem lists_visitCallbacks (walk : Walk) (location : String) (callbacks : List NamedCallback)
    (h : ∀ id, .operation id ∈ partsOfCallbacks callbacks → id ≠ "") (set : FragmentSet)
    (entries : List OperationEntry) (hset : set.Lists entries) :
    (walk.visitCallbacks location callbacks set).Gives
      (Lists (entries ++ entriesOfCallbacks callbacks)) := by
  cases callbacks with
  | nil =>
    rw [visitCallbacks, entriesOfCallbacks, List.append_nil]
    exact gives_pure hset
  | cons each rest =>
    obtain ⟨name, callback⟩ := each
    rw [visitCallbacks, entriesOfCallbacks]
    refine gives_bind (lists_visitCallback walk _ callback
      fun id hid => h id (List.mem_append_left _ hid)) fun visited hvisited => ?_
    have hrest := lists_visitCallbacks walk location rest
      (fun id hid => h id (List.mem_append_right _ hid)) _ _ (hset.extend hvisited)
    rwa [List.append_assoc] at hrest
termination_by structural callbacks

theorem lists_visitCallback (walk : Walk) (location : String) (callback : Callback)
    (h : ∀ id, .operation id ∈ callback.parts → id ≠ "") :
    (walk.visitCallback location callback).Gives (Lists callback.entries) := by
  cases callback with
  | reference reference =>
    rw [visitCallback, Callback.entries]
    exact gives_pure (lists_empty.push _)
  | items items =>
    rw [visitCallback, Callback.entries]
    exact lists_visitItems walk location items h {} [] lists_empty
termination_by structural callback

theorem lists_visitItems (walk : Walk) (location : String) (items : List NamedItem)
    (h : ∀ id, .operation id ∈ partsOfItems items → id ≠ "") (set : FragmentSet)
    (entries : List OperationEntry) (hset : set.Lists entries) :
    (walk.visitItems location items set).Gives (Lists (entries ++ entriesOfItems items)) := by
  cases items with
  | nil =>
    rw [visitItems, entriesOfItems, List.append_nil]
    exact gives_pure hset
  | cons each rest =>
    obtain ⟨expression, item⟩ := each
    rw [visitItems, entriesOfItems]
    refine gives_bind (lists_visitPathItem walk _ expression item
      fun id hid => h id (List.mem_append_left _ hid)) fun visited hvisited => ?_
    have hrest := lists_visitItems walk location rest
      (fun id hid => h id (List.mem_append_right _ hid)) _ _ (hset.extend hvisited)
    rwa [List.append_assoc] at hrest
termination_by structural items

end

/-! ### Starting points -/

/-- A fold whose steps list operations lists them one after the other. -/
theorem lists_foldlM {α : Type} {xs : List α} {step : FragmentSet → α → Run FragmentSet}
    {listed : α → List OperationEntry}
    (hstep : ∀ x ∈ xs, ∀ set entries, set.Lists entries →
      (step set x).Gives (Lists (entries ++ listed x)))
    {set : FragmentSet} {entries : List OperationEntry} (h : set.Lists entries) :
    (xs.foldlM step set).Gives (Lists (entries ++ xs.flatMap listed)) := by
  induction xs generalizing set entries with
  | nil =>
    rw [List.foldlM_nil, List.flatMap_nil, List.append_nil]
    exact gives_pure h
  | cons x xs ih =>
    rw [List.foldlM_cons, List.flatMap_cons, ← List.append_assoc]
    refine gives_bind (hstep x List.mem_cons_self set entries h) fun set hset => ?_
    exact ih (fun x hx => hstep x (List.mem_cons_of_mem _ hx)) hset

theorem lists_visitCollection (collection : String) (set : FragmentSet)
    (entries : List OperationEntry) (h : set.Lists entries) :
    (walk.visitCollection set collection).Gives
      (Lists (entries ++ ((walk.document.entries? collection).getD []).flatMap
        fun (path, item) => (PathItem.ofJson item).entries path)) := by
  refine lists_foldlM (fun (path, item) _ set entries hset => ?_) h
  refine gives_bind (lists_visitPathItem walk _ path _ fun id hid => from_pathItem hid)
    fun visited hvisited => ?_
  exact gives_pure (hset.extend hvisited)

theorem lists_declaredSchemas (document : Json) (kind : DocumentKind) :
    (declaredSchemas document kind).Lists [] :=
  ⟨rfl, rfl, fun _ hentry => absurd hentry List.not_mem_nil⟩

/-- The fragments that a document starts from list the operations in its path items. -/
theorem lists_documentFragments (walk : Walk) :
    walk.documentFragments.Gives
      (Lists ((pathItems walk.document).flatMap fun (path, item) => item.entries path)) := by
  have hentries : ((pathItems walk.document).flatMap fun (path, item) => item.entries path) =
      [] ++ collections.flatMap fun collection =>
        ((walk.document.entries? collection).getD []).flatMap
          fun (path, item) => (PathItem.ofJson item).entries path := by
    rw [pathItems, List.flatMap_assoc]
    simp only [List.flatMap_map, List.nil_append]
  unfold documentFragments
  -- The set lists no operation before the first collection, hence the empty list in front.
  rw [hentries]
  refine gives_bind (lists_foldlM (fun collection _ => lists_visitCollection collection) lists_empty)
    fun set hset => gives_pure ?_
  split
  · exact hset.extend_quiet (lists_declaredSchemas _ _)
  · exact hset

/-- What a document starts from announces nothing but its references and its named schemas. -/
theorem allowed_documentFragments {allowed : String → Prop}
    (hdocument : ∀ reference ∈ Pointer.references walk.document, allowed reference)
    (hschemas : ∀ reference ∈ declaredSchemaReferences walk.document .api, allowed reference) :
    walk.documentFragments.Gives fun set =>
      ∀ reference ∈ set.assumedReferences, allowed reference := by
  have hregistered : walk.documentFragments.Gives (announcing allowed).Registered := by
    refine Register.gives_documentFragments (suitsOperations_announcing allowed walk) ?_ hschemas
    intro collection _ entry hentry part hpart
    obtain ⟨entries, hentries, hentry⟩ := Json.exists_entries?_of_mem_getD hentry
    have hinside := Json.inside_of_mem_entries? hentries hentry
    exact takes_announcing (from_pathItem hpart) fun reference hreference =>
      hdocument reference (Pointer.references_subset_of_inside hinside hreference)
  refine hregistered.mono fun set hset reference hreference => ?_
  exact hset.allowed _ (FragmentSet.mem_assumedReferences.1 hreference)

/-! ### Expansions -/

/-- What is expanded lists operations, and none unless it addresses a path item or a callback. -/
theorem lists_expand (walk : Walk) (reference : String) :
    (walk.expand reference).Gives fun set =>
      ∃ entries, set.Lists entries ∧ (¬ AddressesPaths reference → entries = []) := by
  -- What declares a parameter, a body, a header, a response or a schema lists nothing.
  have hquiet {run : Run FragmentSet}
      (hrun : ∀ final, DeclarationRules final (fun _ => True) False (Lists []) →
        Run.GivesWithin final run (Lists [])) :
      run.Gives fun set =>
        ∃ entries, set.Lists entries ∧ (¬ AddressesPaths reference → entries = []) :=
    (Run.gives_of_givesWithin fun final => hrun final (quietRules final)).mono
      fun set hset => ⟨[], hset, fun _ => rfl⟩
  unfold expand
  refine gives_bind (gives_liftExcept fun _ _ => trivial) fun value _ => ?_
  simp only
  split
  · exact hquiet fun _ rules => rules.givesWithin_requestBodyDeclaration trivial
  · exact hquiet fun _ rules => rules.givesWithin_parameterDeclaration trivial
  · exact hquiet fun _ rules => rules.givesWithin_responseDeclaration
      ⟨trivial, trivial, trivial, fun _ => trivial⟩
  · exact hquiet fun _ rules => rules.givesWithin_headerDeclaration trivial
  · next hbucket =>
    obtain ⟨name, hname⟩ := split_of_bucketOf hbucket (by decide)
    refine (lists_visitCallback walk _ _ fun id hid => from_callback hid).mono fun set hset => ?_
    exact ⟨_, hset, fun hpaths => absurd ⟨name, .inl hname⟩ hpaths⟩
  · next hbucket =>
    obtain ⟨name, hname⟩ := split_of_bucketOf hbucket (by decide)
    refine (lists_visitPathItem walk _ _ _ fun id hid => from_pathItem hid).mono fun set hset => ?_
    exact ⟨_, hset, fun hpaths => absurd ⟨name, .inr hname⟩ hpaths⟩
  · exact hquiet fun _ rules => rules.givesWithin_schemaDeclaration trivial

section Passes

variable {initial set set' : FragmentSet} {names names' : EnumNames} {expanded : List String}
  {expansions : List Expansion} {passes : List (List Expansion)} {expansion : Expansion}
  {entries : List OperationEntry}

theorem Expands.exists_yields (h : walk.Expands set names expansions set' names')
    (hmem : expansion ∈ expansions) :
    ∃ before after, (walk.expand expansion.reference).Yields before expansion.emitted after := by
  induction h with
  | nil => exact absurd hmem List.not_mem_nil
  | cons first others ih =>
    rcases List.mem_cons.1 hmem with rfl | hmem
    · exact ⟨_, _, first⟩
    · exact ih hmem

/-- Whatever is expanded in the passes comes of its expansion. -/
theorem Passes.exists_yields (h : walk.Passes expanded set names passes set' names')
    (hmem : expansion ∈ passes.flatten) :
    ∃ before after, (walk.expand expansion.reference).Yields before expansion.emitted after := by
  induction h with
  | nil => exact absurd hmem List.not_mem_nil
  | cons _ _ hpass _ ih =>
    rw [List.flatten_cons, List.mem_append] at hmem
    rcases hmem with hmem | hmem
    · exact hpass.exists_yields hmem
    · exact ih hmem

theorem exists_lists_addAll (hset : set.Lists entries)
    (h : ∀ expansion ∈ expansions, ∃ listed, expansion.emitted.Lists listed ∧
      (¬ AddressesPaths expansion.reference → listed = [])) :
    ∃ more, (addAll set expansions).Lists (entries ++ more) ∧
      ((∀ reference ∈ expandedIn expansions, ¬ AddressesPaths reference) → more = []) := by
  induction expansions generalizing set entries with
  | nil =>
    refine ⟨[], ?_, fun _ => rfl⟩
    rw [List.append_nil]
    exact hset
  | cons expansion rest ih =>
    obtain ⟨listed, hlisted, hnone⟩ := h expansion List.mem_cons_self
    -- The entries of this expansion come before those of the rest.
    obtain ⟨more, hmore, hnoMore⟩ := ih (hset.extend hlisted)
      fun expansion hmem => h expansion (List.mem_cons_of_mem _ hmem)
    refine ⟨listed ++ more, ?_, fun hpaths => ?_⟩
    · rw [← List.append_assoc]
      exact hmore
    · have hfirst := hnone (hpaths _ List.mem_cons_self)
      have hrest := hnoMore fun reference hmem => hpaths reference (List.mem_cons_of_mem _ hmem)
      rw [hfirst, hrest, List.append_nil]

/-- The passes add operations at the end, and none unless a path item or a callback is expanded. -/
theorem Passes.exists_lists (h : walk.Passes expanded set names passes set' names')
    (hset : set.Lists entries) :
    ∃ more, set'.Lists (entries ++ more) ∧
      ((∀ reference ∈ expandedIn passes.flatten, ¬ AddressesPaths reference) → more = []) := by
  rw [h.eq_addAll]
  refine exists_lists_addAll hset fun expansion hmem => ?_
  obtain ⟨before, after, hyields⟩ := h.exists_yields hmem
  exact lists_expand walk _ _ _ _ hyields

/-- What is expanded is allowed, if the references at the start and those of the document are. -/
theorem Passes.forall_expandedIn {allowed : String → Prop}
    (h : walk.Passes expanded initial names passes set names')
    (hinitial : ∀ reference ∈ initial.assumedReferences, allowed reference)
    (hdocument : ∀ reference ∈ Pointer.references walk.document, allowed reference) :
    ∀ reference ∈ expandedIn passes.flatten, allowed reference := by
  intro reference hreference
  rcases h.announced_of_expanded hreference with hassumed | ⟨expansion, hmem, hassumed⟩
  · exact hinitial reference hassumed
  · obtain ⟨before, after, hyields⟩ := h.exists_yields hmem
    exact hdocument reference ((expand_emits hyields).1 reference hassumed)

end Passes

end Walk

end Typewright.Api
