import Typewright.Api.Expansion
import Typewright.Proofs.Api.Parts
import Typewright.Proofs.Schema.Diagnostics

/-!
# Where the diagnostics of a walk point

A walk hands the location of each value down with the value.  Where the two are in step at the start,
they stay in step through parameters, bodies, responses, headers, callbacks and components, so all
warnings and failures of the walk point into its document: one lemma for each kind of declaration, one
induction over path items (`ends_visitPathItem`), and the passes of the expansion
(`ends_expandFixedPoint`).
-/

namespace Typewright

open Pointer (Placed)

/-! ### Failures without a reference -/

/-- A failure that carries no reference points into every document. -/
theorem Failure.pointsInto_of_reference?_eq_none {root : Json} {failure : Failure}
    (h : failure.reference? = none) : failure.PointsInto root := by
  intro reference hreference
  rw [h] at hreference
  simp at hreference

namespace Pointer

variable {document value : Json} {failure : Failure}

theorem reference?_of_walk {path segments : List String}
    (h : walk path value segments = .error failure) : failure.reference? = none := by
  induction segments generalizing value with
  | nil => simp [walk] at h
  | cons segment rest ih =>
    rw [walk] at h
    split at h
    · exact ih h
    · rw [← Except.error.inj h]
      rfl

/-- A path that leads nowhere is told by the path itself and not by a reference. -/
theorem reference?_of_resolve {path : List String} (h : resolve document path = .error failure) :
    failure.reference? = none := by
  unfold resolve at h
  split at h
  · rw [← Except.error.inj h]
    rfl
  · exact reference?_of_walk h

/-- A chain of references breaks off at one that leads nowhere or has been seen before, and the
    failure tells the path of that one. -/
theorem reference?_of_followFrom {fuel : Nat} {visited : List String}
    (h : followFrom document fuel visited value = .error failure) : failure.reference? = none := by
  induction fuel generalizing visited value with
  | zero =>
    unfold followFrom at h
    split at h
    · simp at h
    · split at h <;> exact (Except.error.inj h) ▸ rfl
  | succ fuel ih =>
    unfold followFrom at h
    split at h
    · simp at h
    · split at h
      · exact (Except.error.inj h) ▸ rfl
      · simp only at h
        split at h
        · exact ih h
        · next other hresolve => exact (Except.error.inj h) ▸ reference?_of_resolve hresolve

theorem reference?_of_follow (h : follow document value = .error failure) :
    failure.reference? = none := by
  unfold follow at h
  split at h
  · simp at h
  · exact reference?_of_followFrom h

end Pointer

namespace Api

/-- The values stand at their locations. -/
def Located.Placed (root : Json) (parameters : List Located) : Prop :=
  ∀ parameter ∈ parameters, Pointer.Placed root parameter.value parameter.location

/-- The entries of an array stand at its location and their index. -/
theorem Located.placed_items {root value : Json} {location name : String}
    (h : Pointer.Placed root value location) :
    Located.Placed root
      (Located.items (Pointer.child location name) ((value.items? name).getD [])) := by
  cases hitems : value.items? name with
  | none => exact fun parameter hparameter => absurd hparameter List.not_mem_nil
  | some items =>
    intro parameter hparameter
    unfold Located.items at hparameter
    -- The location was made from the index, so it leads back to the entry.
    obtain ⟨index, hindex, rfl⟩ := List.mem_mapIdx.1 hparameter
    exact (h.items hitems).item (List.getElem?_eq_getElem hindex)

namespace Walk

open Schema

variable {walk : Walk} {set : FragmentSet} {site operation : Site} {location hint : String}
  {value : Json}

/-- Whatever a typing raises points into the document of the walk. -/
def PointsTyping (walk : Walk) (run : Run Typing) : Prop :=
  EndsTyping (FragmentSet.PointsInto walk.document) (Failure.PointsInto walk.document) run

/-- Whatever is raised on the way to a set points into the document of the walk. -/
def PointsSet (walk : Walk) (run : Run FragmentSet) : Prop :=
  run.Ends (FragmentSet.PointsInto walk.document) (Failure.PointsInto walk.document)

/-- Whatever is raised on the way to a set, with more, points into the document of the walk. -/
def PointsFrom {α : Type} (walk : Walk) (run : Run (FragmentSet × α)) : Prop :=
  run.Ends (fun done => done.1.PointsInto walk.document) (Failure.PointsInto walk.document)

/-! ### Types -/

/-- A schema is typed at the location that is handed down with it. -/
theorem ends_schemaTyping (h : Placed walk.document value location) :
    walk.PointsTyping (walk.schemaTyping location hint value) :=
  ends_unitedTyping none h

/-- The schema of a parameter, a header or a media type stands under its own key. -/
theorem ends_ownSchemaTyping (h : Placed walk.document value location) :
    walk.PointsTyping (walk.ownSchemaTyping location hint value) := by
  unfold ownSchemaTyping
  split
  · next schema hschema => exact ends_schemaTyping (h.field hschema)
  · exact pointsIntoRules.pure rfl

/-- Each media type is typed below the key that names it. -/
theorem ends_mediaTypings {content : List (String × Json)}
    (h : ∀ media ∈ content, Placed walk.document media.2 (Pointer.child location media.1)) :
    EndsTypings (FragmentSet.PointsInto walk.document) (Failure.PointsInto walk.document)
      (walk.mediaTypings location hint content) := by
  induction content with
  | nil => exact Run.ends_pure fun typing htyping => absurd htyping List.not_mem_nil
  | cons media rest ih =>
    rw [mediaTypings]
    refine Run.ends_bind (ends_ownSchemaTyping (h media List.mem_cons_self)) fun first hfirst => ?_
    refine Run.ends_bind (ih fun media hmedia => h media (List.mem_cons_of_mem _ hmedia))
      fun others hothers => ?_
    exact Run.ends_pure (List.forall_mem_cons.2 ⟨hfirst, hothers⟩)

/-- The types of a content are united, which adds no warning. -/
theorem ends_contentTyping {content : List (String × Json)}
    (h : Placed walk.document (.object content) location) :
    walk.PointsTyping (walk.contentTyping location hint content) :=
  Run.ends_bind (ends_mediaTypings fun _ hmedia => h.entry hmedia) fun _ htypings =>
    Run.ends_pure (pointsInto_emittedOf htypings)

/-- Where a key holds entries, these stand at the location of the key. -/
theorem placed_nonemptyEntries {name : String} {entries : List (String × Json)}
    (h : Placed walk.document value location) (hentries : nonemptyEntries? value name = some entries) :
    Placed walk.document (.object entries) (Pointer.child location name) :=
  h.entries (Option.filter_eq_some_iff.1 hentries).1

/-- A parameter is typed by its own schema, or else by that of its first media type. -/
theorem ends_parameterTyping (h : Placed walk.document value location) :
    walk.PointsTyping (walk.parameterTyping location hint value) := by
  unfold parameterTyping
  split
  · next mediaType media _ hcontent =>
    obtain ⟨content, hentries, hhead⟩ := Option.bind_eq_some_iff.1 hcontent
    exact ends_ownSchemaTyping ((h.entries hentries).entry (List.mem_of_head? hhead))
  · exact ends_ownSchemaTyping h

/-- A header that is described by `content` is what the failure is about. -/
theorem ends_headerTyping (h : Placed walk.document value location) :
    walk.PointsTyping (walk.headerTyping location hint value) := by
  unfold headerTyping
  split
  · next hcontent =>
    refine Run.ends_throw fun reference hreference => ?_
    obtain rfl := Option.some.inj hreference
    exact ⟨value, h.resolve_eq, .header hcontent rfl⟩
  · exact ends_ownSchemaTyping h

/-! ### Declarations -/

/-- A set takes the warnings of a typing over as they are. -/
theorem pointsInto_absorb {typing : Typing} (h : set.PointsInto walk.document)
    (htyping : typing.emitted.PointsInto walk.document) :
    (set.absorb typing).1.PointsInto walk.document :=
  h.extend htyping

theorem pointsInto_typeDeclaration {typing : Typing}
    (h : typing.emitted.PointsInto walk.document) :
    (typeDeclaration site typing).PointsInto walk.document :=
  (pointsInto_absorb FragmentSet.pointsInto_empty h).push _

/-- Declaring the type of a typing adds nothing to what the typing raises. -/
theorem PointsTyping.typeDeclaration {run : Run Typing} (h : walk.PointsTyping run) :
    walk.PointsSet (typeDeclaration site <$> run) :=
  Run.ends_map h fun _ htyping => pointsInto_typeDeclaration htyping

/-- A redirect raises nothing. -/
theorem ends_redirectDeclaration (site : Site) (reference : String) :
    walk.PointsSet (pure (walk.redirectDeclaration site reference)) :=
  Run.ends_pure FragmentSet.pointsInto_empty

/-- A parameter is redirected if it is a reference object, and typed where it stands if not. -/
theorem ends_parameterDeclaration (h : Placed walk.document value location) :
    walk.PointsSet (walk.parameterDeclaration site location value) := by
  unfold parameterDeclaration
  split
  · exact ends_redirectDeclaration site _
  · exact (ends_parameterTyping h).typeDeclaration

/-- A body is redirected, typed by its content, or of any type if it has no content. -/
theorem ends_requestBodyDeclaration (h : Placed walk.document value location) :
    walk.PointsSet (walk.requestBodyDeclaration site location value) := by
  unfold requestBodyDeclaration
  split
  · exact ends_redirectDeclaration site _
  · simp only
    split
    · next content hcontent =>
      exact Run.ends_bind (ends_contentTyping (placed_nonemptyEntries h hcontent)) fun _ htyping =>
        Run.ends_pure (pointsInto_typeDeclaration htyping)
    · exact Run.ends_pure FragmentSet.pointsInto_empty

/-- A header among the components stands at the reference of its site. -/
theorem ends_headerDeclaration (h : Placed walk.document value site.reference) :
    walk.PointsSet (walk.headerDeclaration site value) := by
  unfold headerDeclaration
  split
  · exact ends_redirectDeclaration site _
  · exact (ends_headerTyping h).typeDeclaration

/-- To see whether something is required its references are followed; where that fails no reference
    is carried. -/
theorem ends_isRequired (value : Json) :
    Run.Ends (liftM (walk.isRequired value) : Run Bool) (fun _ => True)
      (Failure.PointsInto walk.document) := by
  refine Run.ends_liftExcept (fun _ _ => trivial) fun failure hfailure => ?_
  unfold isRequired at hfailure
  cases hfollow : Pointer.follow walk.document value with
  | ok resolved => simp [hfollow, Except.map] at hfailure
  | error other =>
    rw [hfollow] at hfailure
    obtain rfl := Except.error.inj hfailure
    exact Failure.pointsInto_of_reference?_eq_none (Pointer.reference?_of_follow hfollow)

/-- Headers become members one after the other, each typed below its own name. -/
theorem ends_headerMembers {headers : List (String × Json)} {anyRequired : Bool}
    (h : ∀ header ∈ headers, Placed walk.document header.2 (Pointer.child location header.1))
    (hset : set.PointsInto walk.document) :
    walk.PointsFrom (walk.headerMembers site location headers (set, anyRequired)) := by
  induction headers generalizing set anyRequired with
  | nil => exact Run.ends_pure hset
  | cons header rest ih =>
    obtain ⟨name, header⟩ := header
    have hrest := fun entry hentry => h entry (List.mem_cons_of_mem _ hentry)
    rw [headerMembers]
    refine Run.ends_bind (ends_isRequired header) fun required _ => ?_
    simp only
    split
    -- A header that is a reference object is noted with its member and is not typed here.
    · exact ih hrest ((hset.push _).push _)
    · refine Run.ends_bind (ends_headerTyping (h _ List.mem_cons_self)) fun typing htyping => ?_
      rw [pure_bind]
      exact ih hrest ((pointsInto_absorb hset htyping).push _)

/-- The body of a response is the union of its media types; without a content nothing is typed. -/
theorem ends_responseBody (h : Placed walk.document value location)
    (hset : set.PointsInto walk.document) :
    walk.PointsSet (walk.responseBody site location value set) := by
  unfold responseBody
  split
  · next content hcontent =>
    refine Run.ends_bind (ends_contentTyping (placed_nonemptyEntries h hcontent))
      fun typing htyping => ?_
    exact Run.ends_pure ((pointsInto_absorb hset htyping).push _)
  · exact Run.ends_pure hset
  · exact Run.ends_pure (hset.push _)

/-- The headers of a response stand below its key for headers. -/
theorem ends_responseHeaders (h : Placed walk.document value location)
    (hset : set.PointsInto walk.document) :
    walk.PointsSet (walk.responseHeaders site location value set) := by
  unfold responseHeaders
  split
  · next headers hheaders =>
    have hplaced := placed_nonemptyEntries h hheaders
    refine Run.ends_bind (ends_headerMembers (fun _ hheader => hplaced.entry hheader) hset)
      fun done hdone => ?_
    exact Run.ends_pure (hdone.push _)
  · exact Run.ends_pure hset

/-- A response is redirected, or its body is declared and then its headers. -/
theorem ends_responseDeclaration (h : Placed walk.document value location) :
    walk.PointsSet (walk.responseDeclaration site location value) := by
  unfold responseDeclaration
  split
  · exact ends_redirectDeclaration site _
  · exact Run.ends_bind (ends_responseBody h (FragmentSet.pointsInto_empty.push _))
      fun set hset => ends_responseHeaders h hset

/-! ### Operations -/

/-- Where a reference object stands in for a declaration, only its reference is noted. -/
theorem ends_declareOrRedirect {declaration : Run FragmentSet} (hset : set.PointsInto walk.document)
    (h : walk.PointsSet declaration) :
    walk.PointsFrom (walk.declareOrRedirect set site value declaration) := by
  unfold declareOrRedirect
  split
  · exact Run.ends_pure (hset.push _)
  · exact Run.ends_bind h fun declared hdeclared => Run.ends_pure (hset.extend hdeclared)

/-- Parameters become members one after the other; each comes with its own location. -/
theorem ends_parameterMembers {parameters : List Located} {taken : List String}
    (h : Located.Placed walk.document parameters) (hset : set.PointsInto walk.document) :
    walk.PointsSet (walk.parameterMembers operation parameters taken set) := by
  induction parameters generalizing taken set with
  | nil => exact Run.ends_pure hset
  | cons parameter rest ih =>
    have hfollow : Run.Ends (liftM (Pointer.follow walk.document parameter.value) : Run Json)
        (fun _ => True) (Failure.PointsInto walk.document) :=
      Run.ends_liftExcept (fun _ _ => trivial) fun failure hfailure =>
        Failure.pointsInto_of_reference?_eq_none (Pointer.reference?_of_follow hfailure)
    rw [parameterMembers]
    refine Run.ends_bind hfollow fun resolved _ => ?_
    refine Run.ends_bind (ends_declareOrRedirect hset
      (ends_parameterDeclaration (h parameter List.mem_cons_self))) fun done hdone => ?_
    exact ih (fun parameter hparameter => h parameter (List.mem_cons_of_mem _ hparameter))
      (hdone.push _)

/-- The request body stands under its own key of the operation. -/
theorem ends_bodyMember {body : Option Json}
    (h : ∀ value ∈ body, Placed walk.document value (Pointer.child location "requestBody"))
    (hset : set.PointsInto walk.document) :
    walk.PointsSet (walk.bodyMember operation location set body) := by
  cases body with
  | none => exact Run.ends_pure hset
  | some value =>
    refine Run.ends_bind (ends_isRequired value) fun required _ => ?_
    refine Run.ends_bind (ends_declareOrRedirect hset (ends_requestBodyDeclaration (h value rfl)))
      fun done hdone => ?_
    exact Run.ends_pure (hdone.push _)

/-- The input of an operation gathers its parameters and its body. -/
theorem ends_operationInput {shared : List Located} (h : Placed walk.document value location)
    (hshared : Located.Placed walk.document shared) :
    walk.PointsSet (walk.operationInput operation location (OperationFacts.ofJson value) shared) := by
  unfold operationInput
  refine Run.ends_bind (ends_parameterMembers ?_ (FragmentSet.pointsInto_empty.push _))
    fun set hset => ends_bodyMember (fun _ hbody => h.field hbody) hset
  intro parameter hparameter
  -- Shared parameters keep the locations they have in the path item.
  rcases List.mem_append.1 hparameter with hparameter | hparameter
  · exact hshared parameter (List.mem_of_mem_filter hparameter)
  · exact Located.placed_items h parameter hparameter

/-- A response is declared at its status, or is a reference object that is noted. -/
theorem ends_statusDeclaration {status : String} (h : Placed walk.document value location)
    (hset : set.PointsInto walk.document) :
    walk.PointsSet (walk.statusDeclaration site location status value set) := by
  unfold statusDeclaration
  split
  · exact Run.ends_pure ((hset.push _).push _)
  · exact Run.ends_bind (ends_responseDeclaration h) fun declared hdeclared =>
      Run.ends_pure ((hset.extend hdeclared).push _)

/-- Responses are declared one after the other.  One that the options leave out is only reported, and
    by its operation. -/
theorem ends_responseDeclarations {operationId : String} {responses : List (String × Json)}
    {outputs : List TypeExpr}
    (h : ∀ response ∈ responses,
      Placed walk.document response.2 (Pointer.descend location ["responses", response.1]))
    (hset : set.PointsInto walk.document) :
    walk.PointsFrom
      (walk.responseDeclarations operation location operationId responses set outputs) := by
  induction responses generalizing set outputs with
  | nil => exact Run.ends_pure hset
  | cons response rest ih =>
    obtain ⟨status, value⟩ := response
    have hrest := fun entry hentry => h entry (List.mem_cons_of_mem _ hentry)
    rw [responseDeclarations]
    split
    · exact Run.ends_bind (ends_statusDeclaration (h _ List.mem_cons_self) hset)
        fun set hset => ih hrest hset
    · exact ih hrest (hset.warn trivial)

/-- The responses of an operation stand under their status. -/
theorem ends_operationOutput {operationId : String} (h : Placed walk.document value location) :
    walk.PointsSet
      (walk.operationOutput operation location operationId (OperationFacts.ofJson value)) := by
  refine Run.ends_bind (ends_responseDeclarations (fun response hresponse => ?_)
    FragmentSet.pointsInto_empty) fun done hdone => Run.ends_pure (hdone.push _)
  obtain ⟨entries, hentries, hresponse⟩ := Json.exists_entries?_of_mem_getD hresponse
  exact (h.entries hentries).entry hresponse

/-- An operation without an id is given one, with a warning, or fails by its method and its path;
    neither carries a reference. -/
theorem ends_operationId (method : Method) (path : String) (facts : OperationFacts) :
    Run.Ends (liftM (walk.operationId method path facts) : Run (String × FragmentSet))
      (fun named => named.2.PointsInto walk.document) (Failure.PointsInto walk.document) := by
  unfold operationId
  split
  · exact Run.ends_pure FragmentSet.pointsInto_empty
  · split
    · exact Run.ends_throw (Failure.pointsInto_of_reference?_eq_none rfl)
    · exact Run.ends_pure (List.forall_mem_singleton.2 trivial)

/-- The operations of a path item stand under the names of their methods. -/
theorem ends_visitOperations {path : String} {shared : List Located}
    {operations : List MethodOperation}
    (h : ∀ each ∈ operations, walk.PointsSet (walk.visitOperation
      (Pointer.child location each.method.name) each.method path shared each.operation))
    (hset : set.PointsInto walk.document) :
    walk.PointsSet (walk.visitOperations location path shared operations set) := by
  induction operations generalizing set with
  | nil =>
    rw [visitOperations]
    exact Run.ends_pure hset
  | cons each rest ih =>
    have heach := h each List.mem_cons_self
    obtain ⟨method, operation⟩ := each
    rw [visitOperations]
    refine Run.ends_bind heach fun visited hvisited => ?_
    exact ih (fun each hmem => h each (List.mem_cons_of_mem _ hmem)) (hset.extend hvisited)

/-- The callbacks of an operation stand under their names. -/
theorem ends_visitCallbacks {fields : List (String × Json)}
    (h : ∀ field ∈ fields, walk.PointsSet
      (walk.visitCallback (Pointer.child location field.1) (Callback.ofJson field.2)))
    (hset : set.PointsInto walk.document) :
    walk.PointsSet (walk.visitCallbacks location (namedCallbacks fields) set) := by
  induction fields generalizing set with
  | nil =>
    rw [namedCallbacks, visitCallbacks]
    exact Run.ends_pure hset
  | cons field rest ih =>
    rw [namedCallbacks, visitCallbacks]
    refine Run.ends_bind (h field List.mem_cons_self) fun visited hvisited => ?_
    exact ih (fun field hfield => h field (List.mem_cons_of_mem _ hfield)) (hset.extend hvisited)

/-- The path items of a callback stand under their expressions. -/
theorem ends_visitItems {fields : List (String × Json)}
    (h : ∀ field ∈ fields, walk.PointsSet
      (walk.visitPathItem (Pointer.child location field.1) field.1 (PathItem.ofJson field.2)))
    (hset : set.PointsInto walk.document) :
    walk.PointsSet (walk.visitItems location (namedItems fields) set) := by
  induction fields generalizing set with
  | nil =>
    rw [namedItems, visitItems]
    exact Run.ends_pure hset
  | cons field rest ih =>
    rw [namedItems, visitItems]
    refine Run.ends_bind (h field List.mem_cons_self) fun visited hvisited => ?_
    exact ih (fun field hfield => h field (List.mem_cons_of_mem _ hfield)) (hset.extend hvisited)

/-- Visiting the value as a path item, as an operation or as a callback, wherever it stands, raises
    only what points into the document. -/
structure PointsVisits (walk : Walk) (value : Json) : Prop where
  pathItem : ∀ location path, Placed walk.document value location →
    walk.PointsSet (walk.visitPathItem location path (PathItem.ofJson value))
  operation : ∀ location method path shared, Placed walk.document value location →
    Located.Placed walk.document shared →
      walk.PointsSet (walk.visitOperation location method path shared (Operation.ofJson value))
  callback : ∀ location, Placed walk.document value location →
    walk.PointsSet (walk.visitCallback location (Callback.ofJson value))

/-- A path item that is no reference object holds its operations in its fields, and the parameters
    that these share. -/
theorem ends_visitPathItem_of_fields {fields : List (String × Json)} {path : String}
    (ih : ∀ field ∈ fields, walk.PointsVisits field.2)
    (h : Placed walk.document (.object fields) location) :
    walk.PointsSet (walk.visitPathItem location path (PathItem.ofJson (.object fields))) := by
  rw [PathItem.ofJson]
  cases Pointer.target? (.object fields) with
  | some reference =>
    rw [visitPathItem]
    exact Run.ends_pure FragmentSet.pointsInto_empty
  | none =>
    rw [visitPathItem]
    refine ends_visitOperations (fun each heach => ?_) FragmentSet.pointsInto_empty
    -- The order of the methods does not matter: each operation is the value of some field.
    obtain ⟨field, hfield, hname, heq⟩ := exists_of_mem_operationsOf (mem_of_mem_inOrder heach)
    rw [heq, ← hname]
    exact (ih field hfield).operation _ _ _ _ (h.entry hfield) (Located.placed_items h)

/-- An operation is visited with its own id, input and output, and then its callbacks, which are
    values inside it. -/
theorem ends_visitOperation_of_callbacks {method : Method} {path : String} {shared : List Located}
    (ih : ∀ inner, inner.Inside value → walk.PointsVisits inner)
    (h : Placed walk.document value location) (hshared : Located.Placed walk.document shared) :
    walk.PointsSet (walk.visitOperation location method path shared (Operation.ofJson value)) := by
  rw [Operation.ofJson_eq, visitOperation]
  refine Run.ends_bind (ends_operationId method path _) fun named hnamed => ?_
  refine Run.ends_bind (ends_operationInput h hshared) fun input hinput => ?_
  refine Run.ends_bind (ends_operationOutput h) fun output houtput => ?_
  refine ends_visitCallbacks (fun field hfield => ?_) ((hnamed.extend hinput).extend houtput)
  obtain ⟨entries, hentries, hfield⟩ := Json.exists_entries?_of_mem_getD hfield
  exact (ih field.2 (Json.inside_of_mem_entries? hentries hfield)).callback _
    ((h.entries hentries).entry hfield)

/-- A callback that is no reference object holds path items in its fields. -/
theorem ends_visitCallback_of_fields {fields : List (String × Json)}
    (ih : ∀ field ∈ fields, walk.PointsVisits field.2)
    (h : Placed walk.document (.object fields) location) :
    walk.PointsSet (walk.visitCallback location (Callback.ofJson (.object fields))) := by
  rw [Callback.ofJson]
  split
  · rw [visitCallback]
    exact Run.ends_pure FragmentSet.pointsInto_empty
  · rw [visitCallback]
    exact ends_visitItems (fun field hfield => (ih field hfield).pathItem _ _ (h.entry hfield))
      FragmentSet.pointsInto_empty

/-- Path items, operations and callbacks hold each other only as values that stand inside them, so
    one induction over values covers all three. -/
theorem pointsVisits (walk : Walk) (value : Json) : walk.PointsVisits value := by
  induction value using Json.inside_induction with
  | _ value ih =>
    refine ⟨fun location path h => ?_, fun location method path shared h hshared =>
      ends_visitOperation_of_callbacks ih h hshared, fun location h => ?_⟩
    -- A value that is no object has no operations and no path items.
    · cases value with
      | object fields => exact ends_visitPathItem_of_fields (fun field hfield => ih _ (.field hfield)) h
      | _ => exact Run.ends_pure FragmentSet.pointsInto_empty
    · cases value with
      | object fields => exact ends_visitCallback_of_fields (fun field hfield => ih _ (.field hfield)) h
      | _ => exact Run.ends_pure FragmentSet.pointsInto_empty

/-! ### Documents and expansions -/

/-- Joining two segments addresses the child of a child of the root. -/
theorem split_join_pair (first second : String) :
    Pointer.split (Pointer.join [first, second]) =
      Pointer.split (Pointer.child (Pointer.child Pointer.root first) second) := by
  have hroot : Pointer.split Pointer.root = [] := by decide
  rw [Pointer.split_join_eq, Pointer.split_child_eq, Pointer.split_child_eq, hroot, List.nil_append,
    ← List.filter_append]
  rfl

/-- The path items of a collection stand below the root, under the collection and their path. -/
theorem ends_visitCollection (hroot : Placed walk.document walk.document Pointer.root)
    {collection : String} (hset : set.PointsInto walk.document) :
    walk.PointsSet (walk.visitCollection set collection) := by
  refine Run.ends_foldlM hset fun set entry hentry hset => ?_
  obtain ⟨entries, hentries, hentry⟩ := Json.exists_entries?_of_mem_getD hentry
  -- The walk writes the location as one joined pointer, the placement as two steps from the root.
  have hplaced := ((hroot.entries hentries).entry hentry).congr (split_join_pair _ _)
  exact Run.ends_bind ((pointsVisits walk _).pathItem _ _ hplaced) fun visited hvisited =>
    Run.ends_pure (hset.extend hvisited)

/-- The collections of a document are visited first; its schemas are only noted. -/
theorem ends_documentFragments (hroot : Placed walk.document walk.document Pointer.root) :
    walk.PointsSet walk.documentFragments := by
  unfold documentFragments
  refine Run.ends_bind (Run.ends_foldlM FragmentSet.pointsInto_empty fun set collection _ hset =>
    ends_visitCollection hroot hset) fun set hset => Run.ends_pure ?_
  split
  · exact hset.extend FragmentSet.pointsInto_empty
  · exact hset

/-- A bare schema is typed at the root. -/
theorem ends_rootFragments (hroot : Placed walk.document walk.document Pointer.root) :
    walk.PointsSet walk.rootFragments := by
  unfold rootFragments
  refine Run.ends_bind (ends_unitedTyping none hroot) fun typing htyping => Run.ends_pure ?_
  have hset := pointsInto_absorb FragmentSet.pointsInto_empty htyping
  split
  · exact (hset.push _).extend FragmentSet.pointsInto_empty
  · exact hset.push _

/-- A schema is declared at the reference that led to it. -/
theorem ends_schemaDeclaration (h : Placed walk.document value site.reference) :
    walk.PointsSet (walk.schemaDeclaration site value) := by
  unfold schemaDeclaration
  refine Run.ends_bind (ends_unitedTyping none ?_) fun typing htyping =>
    Run.ends_pure (pointsInto_typeDeclaration htyping)
  split <;> exact h

/-- What a reference addresses is visited at that reference. -/
theorem ends_expand (hroot : walk.document.Addressable) (reference : String) :
    walk.PointsSet (walk.expand reference) := by
  unfold expand
  -- A reference resolves to a value that stands where it says; from there each kind of component
  -- has its own lemma.
  refine Run.ends_bind (Run.ends_liftExcept (fun value hvalue => Pointer.placed_of_resolve hroot hvalue)
    fun failure hfailure => Failure.pointsInto_of_reference?_eq_none
      (Pointer.reference?_of_resolve hfailure)) fun value hplaced => ?_
  simp only
  split
  · exact ends_requestBodyDeclaration hplaced
  · exact ends_parameterDeclaration hplaced
  · exact ends_responseDeclaration hplaced
  · exact ends_headerDeclaration hplaced
  · exact (pointsVisits walk value).callback _ hplaced
  · exact (pointsVisits walk value).pathItem _ _ hplaced
  · exact ends_schemaDeclaration hplaced

/-- References are expanded one after the other, each from the document and not from the set. -/
theorem ends_expandAll (hroot : walk.document.Addressable) (references : List String)
    (hset : set.PointsInto walk.document) : walk.PointsSet (walk.expandAll references set) :=
  Run.ends_foldlM hset fun _ reference _ hset =>
    Run.ends_bind (ends_expand hroot reference) fun _ hexpanded =>
      Run.ends_pure (hset.extend hexpanded)

/-- However many passes are left, each of them only expands references. -/
theorem ends_expandPasses (hroot : walk.document.Addressable) (fuel : Nat) (expanded : List String)
    (stats : Statistics) (hset : set.PointsInto walk.document) :
    walk.PointsFrom (walk.expandPasses fuel expanded set stats) := by
  induction fuel generalizing expanded set stats with
  | zero =>
    unfold expandPasses
    split <;> exact Run.ends_pure hset
  | succ fuel ih =>
    unfold expandPasses
    split
    · exact Run.ends_pure hset
    · exact Run.ends_bind (ends_expandAll hroot _ hset) fun set hset => ih _ _ hset

theorem ends_expandFixedPoint (hroot : walk.document.Addressable) (stats : Statistics)
    (hset : set.PointsInto walk.document) : walk.PointsFrom (walk.expandFixedPoint set stats) :=
  ends_expandPasses hroot _ [] stats hset

end Walk

end Api

end Typewright
