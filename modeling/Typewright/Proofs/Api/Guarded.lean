import Typewright.Api.Expansion
import Typewright.Proofs.Schema.Guarded

/-!
# Strict and lenient walks

A walk under strict options does what the lenient walk does, up to the first forbidden warning: one
lemma for each kind of declaration, for operations and path items, and for the expansion of
references.  Sets are put together in the order in which they are made, so their warnings stand in
the order in which they are raised.
-/

namespace Typewright.Api.Walk

open Schema

variable {options : Options} {walk : Walk} {set : FragmentSet} {site : Site}
  {location hint : String} {value : Json}

/-- The walk with lenient options. -/
def lenient (walk : Walk) : Walk :=
  { walk with context := walk.context.lenient }

/-- A set that is added to a start comes with the warnings raised since. -/
def GuardedSet (options : Options) (start : List Warning) (strict lenient : Run FragmentSet) : Prop :=
  Run.Guarded options strict lenient fun set raised => set.warnings = start ++ raised

/-- A set that is only put together raises nothing. -/
theorem guardedSet_pure {start : List Warning} (h : set.warnings = start) :
    GuardedSet options start (pure set) (pure set) :=
  Run.guarded_pure (by rw [h, List.append_nil])

/-- The warnings of a typing come after those that the set holds already. -/
theorem absorb_warnings (set : FragmentSet) (typing : Typing) :
    (set.absorb typing).1.warnings = set.warnings ++ warningsOf typing := rfl

/-- A step whose set is added to the one at hand, before going on from there. -/
theorem guarded_extend {α : Type} {v : α → List Warning} {strict lenient : Run FragmentSet}
    {strictNext lenientNext : FragmentSet → Run α} (hfirst : GuardedSet options [] strict lenient)
    (hnext : ∀ set : FragmentSet, Run.Guarded options (strictNext set) (lenientNext set)
      fun result raised => v result = set.warnings ++ raised) :
    Run.Guarded options (strict >>= fun made => strictNext (set.extend made))
      (lenient >>= fun made => lenientNext (set.extend made)) fun result raised =>
        v result = set.warnings ++ raised := by
  refine Run.guarded_bind hfirst fun made raised hraised => ?_
  refine (hnext (set.extend made)).mono fun result more hmore => ?_
  rw [hmore, FragmentSet.warnings_extend, hraised, List.nil_append, List.append_assoc]

/-! ### What does not depend on leniency -/

/-- Where a redirect leads does not depend on what the options forbid. -/
theorem lenient_redirectTo (walk : Walk) (reference : String) :
    walk.lenient.redirectTo reference = walk.redirectTo reference := rfl

/-! ### Types -/

/-- The two walks type a schema at one location and under one name. -/
theorem guarded_schemaTyping (walk : Walk) (location hint : String) (value : Json) :
    GuardedTyping walk.context.options (walk.schemaTyping location hint value)
      (walk.lenient.schemaTyping location hint value) :=
  guarded_unitedTyping value ((walk.context.moveTo location).named hint) none

theorem guarded_ownSchemaTyping (walk : Walk) (location hint : String) (value : Json) :
    GuardedTyping walk.context.options (walk.ownSchemaTyping location hint value)
      (walk.lenient.ownSchemaTyping location hint value) := by
  unfold ownSchemaTyping
  split
  · exact guarded_schemaTyping walk _ hint _
  · exact guardedTyping_pure rfl

/-- The warnings of the media types come in the order of the media types. -/
theorem guarded_mediaTypings (walk : Walk) (location hint : String) (content : List (String × Json)) :
    GuardedTypings walk.context.options (walk.mediaTypings location hint content)
      (walk.lenient.mediaTypings location hint content) := by
  induction content with
  | nil => exact Run.guarded_pure rfl
  | cons media rest ih =>
    rw [mediaTypings, mediaTypings]
    refine Run.guarded_bind (guarded_ownSchemaTyping walk _ hint _) fun first raised hraised => ?_
    refine Run.guarded_bind ih fun others more hmore => ?_
    refine Run.guarded_pure ?_
    rw [List.flatMap_cons, hraised, hmore, List.append_nil]

/-- Uniting the media types keeps their warnings, each of them once. -/
theorem guarded_contentTyping (walk : Walk) (location hint : String)
    (content : List (String × Json)) :
    GuardedTyping walk.context.options (walk.contentTyping location hint content)
      (walk.lenient.contentTyping location hint content) := by
  refine Run.guarded_bind (guarded_mediaTypings walk location hint content)
    fun typings raised hraised => Run.guarded_pure ?_
  rw [warningsOf, warnings_emittedOf, hraised, List.append_nil]

theorem guarded_parameterTyping (walk : Walk) (location hint : String) (value : Json) :
    GuardedTyping walk.context.options (walk.parameterTyping location hint value)
      (walk.lenient.parameterTyping location hint value) := by
  unfold parameterTyping
  split <;> exact guarded_ownSchemaTyping walk _ hint _

/-- A header that is described by `content` fails under any options. -/
theorem guarded_headerTyping (walk : Walk) (location hint : String) (value : Json) :
    GuardedTyping walk.context.options (walk.headerTyping location hint value)
      (walk.lenient.headerTyping location hint value) := by
  unfold headerTyping
  split
  · exact Run.guarded_throw
  · exact guarded_ownSchemaTyping walk _ hint _

/-! ### Declarations -/

/-- The declaration of a type holds the warnings of its typing and no others. -/
theorem warnings_typeDeclaration (site : Site) (typing : Typing) :
    (typeDeclaration site typing).warnings = warningsOf typing := rfl

theorem guarded_typeDeclaration {strict lenient : Run Typing}
    (h : GuardedTyping options strict lenient) :
    GuardedSet options [] (typeDeclaration site <$> strict) (typeDeclaration site <$> lenient) :=
  Run.guarded_map h fun typing _ hraised => (warnings_typeDeclaration site typing).trans hraised

theorem guarded_parameterDeclaration (walk : Walk) (site : Site) (location : String) (value : Json) :
    GuardedSet walk.context.options [] (walk.parameterDeclaration site location value)
      (walk.lenient.parameterDeclaration site location value) := by
  unfold parameterDeclaration
  split
  · exact guardedSet_pure rfl
  · exact guarded_typeDeclaration (guarded_parameterTyping walk location _ value)

/-- Whether a body has a content does not depend on the options. -/
theorem guarded_requestBodyDeclaration (walk : Walk) (site : Site) (location : String)
    (value : Json) :
    GuardedSet walk.context.options [] (walk.requestBodyDeclaration site location value)
      (walk.lenient.requestBodyDeclaration site location value) := by
  unfold requestBodyDeclaration
  split
  · exact guardedSet_pure rfl
  · simp only
    split
    · exact Run.guarded_bind (guarded_contentTyping walk _ _ _) fun typing raised hraised =>
        Run.guarded_pure (by rw [List.append_nil]; exact hraised)
    · exact Run.guarded_bind (guardedTyping_pure rfl) fun typing raised hraised =>
        Run.guarded_pure (by rw [List.append_nil]; exact hraised)

theorem guarded_headerDeclaration (walk : Walk) (site : Site) (value : Json) :
    GuardedSet walk.context.options [] (walk.headerDeclaration site value)
      (walk.lenient.headerDeclaration site value) := by
  unfold headerDeclaration
  split
  · exact guardedSet_pure rfl
  · exact guarded_typeDeclaration (guarded_headerTyping walk _ _ value)

/-! ### Responses -/

/-- A set with more added comes with the warnings of the start and those raised since. -/
def GuardedFrom {α : Type} (options : Options) (start : List Warning)
    (strict lenient : Run (FragmentSet × α)) : Prop :=
  Run.Guarded options strict lenient fun done raised => done.1.warnings = start ++ raised

/-- Members for headers raise the warnings of the headers in their order, after those of the set. -/
theorem guarded_headerMembers (walk : Walk) (site : Site) (location : String)
    (headers : List (String × Json)) (set : FragmentSet) (anyRequired : Bool) :
    GuardedFrom walk.context.options set.warnings
      (walk.headerMembers site location headers (set, anyRequired))
      (walk.lenient.headerMembers site location headers (set, anyRequired)) := by
  induction headers generalizing set anyRequired with
  | nil => exact Run.guarded_pure (List.append_nil _).symm
  | cons header rest ih =>
    obtain ⟨name, header⟩ := header
    rw [headerMembers, headerMembers]
    refine Run.guarded_bind (Run.guarded_refl _) fun required raised hraised => ?_
    subst hraised
    simp only [lenient_redirectTo, List.nil_append]
    split
    -- A header that is a reference object is noted without being typed.
    · exact Run.guarded_seq (guardedSet_pure rfl) fun next => ih next _
    · refine Run.guarded_bind (guarded_headerTyping walk _ name header)
        fun typing raised hraised => ?_
      rw [pure_bind, pure_bind]
      refine (ih _ _).mono fun done more hmore => ?_
      rw [hmore, FragmentSet.warnings_push, absorb_warnings, hraised, List.append_assoc]

theorem guarded_responseBody (walk : Walk) (site : Site) (location : String) (value : Json)
    (set : FragmentSet) :
    GuardedSet walk.context.options set.warnings (walk.responseBody site location value set)
      (walk.lenient.responseBody site location value set) := by
  unfold responseBody
  split
  · refine Run.guarded_bind (guarded_contentTyping walk _ _ _) fun typing raised hraised => ?_
    refine Run.guarded_pure ?_
    rw [FragmentSet.warnings_push, FragmentSet.warnings_extend, List.append_nil, ← hraised, warningsOf]
  · exact guardedSet_pure rfl
  · exact guardedSet_pure rfl

/-- The member that gathers the headers raises nothing beyond what they raise. -/
theorem guarded_responseHeaders (walk : Walk) (site : Site) (location : String) (value : Json)
    (set : FragmentSet) :
    GuardedSet walk.context.options set.warnings (walk.responseHeaders site location value set)
      (walk.lenient.responseHeaders site location value set) := by
  unfold responseHeaders
  split
  · refine Run.guarded_bind (guarded_headerMembers walk _ _ _ set false)
      fun done raised hraised => ?_
    refine Run.guarded_pure ?_
    rw [List.append_nil]
    exact hraised
  · exact guardedSet_pure rfl

/-- The warnings of the body come before those of the headers. -/
theorem guarded_responseDeclaration (walk : Walk) (site : Site) (location : String) (value : Json) :
    GuardedSet walk.context.options [] (walk.responseDeclaration site location value)
      (walk.lenient.responseDeclaration site location value) := by
  unfold responseDeclaration
  split
  · exact guardedSet_pure rfl
  · exact Run.guarded_seq (guarded_responseBody walk site location value _)
      fun set => guarded_responseHeaders walk site location value set

/-! ### Operations -/

/-- A reference object raises nothing; a declaration raises what it did on its own. -/
theorem guarded_declareOrRedirect (walk : Walk) (set : FragmentSet) (site : Site) (value : Json)
    {declaration declaration' : Run FragmentSet}
    (h : GuardedSet walk.context.options [] declaration declaration') :
    GuardedFrom walk.context.options set.warnings
      (walk.declareOrRedirect set site value declaration)
      (walk.lenient.declareOrRedirect set site value declaration') := by
  unfold declareOrRedirect
  simp only [lenient_redirectTo]
  split
  · exact Run.guarded_pure (List.append_nil _).symm
  · refine Run.guarded_bind h fun declared raised hraised => Run.guarded_pure ?_
    rw [FragmentSet.warnings_extend, hraised, List.append_nil, List.nil_append]

/-- Following the references of a parameter raises nothing, and its failure is the same in both
    walks. -/
theorem guarded_parameterMembers (walk : Walk) (operation : Site) (parameters : List Located)
    (taken : List String) (set : FragmentSet) :
    GuardedSet walk.context.options set.warnings
      (walk.parameterMembers operation parameters taken set)
      (walk.lenient.parameterMembers operation parameters taken set) := by
  induction parameters generalizing taken set with
  | nil => exact guardedSet_pure rfl
  | cons parameter rest ih =>
    rw [parameterMembers, parameterMembers]
    refine Run.guarded_bind (Run.guarded_refl _) fun resolved raised hraised => ?_
    subst hraised
    exact Run.guarded_seq (guarded_declareOrRedirect walk set _ _
      (guarded_parameterDeclaration walk _ _ _)) fun done => ih _ _

theorem guarded_bodyMember (walk : Walk) (operation : Site) (location : String) (set : FragmentSet)
    (body : Option Json) :
    GuardedSet walk.context.options set.warnings (walk.bodyMember operation location set body)
      (walk.lenient.bodyMember operation location set body) := by
  cases body with
  | none => exact guardedSet_pure rfl
  | some value =>
    refine Run.guarded_bind (Run.guarded_refl _) fun required raised hraised => ?_
    subst hraised
    exact Run.guarded_seq (guarded_declareOrRedirect walk set _ _
      (guarded_requestBodyDeclaration walk _ _ _)) fun done => guardedSet_pure rfl

/-- The warnings of the parameters come before those of the request body. -/
theorem guarded_operationInput (walk : Walk) (operation : Site) (location : String)
    (facts : OperationFacts) (shared : List Located) :
    GuardedSet walk.context.options [] (walk.operationInput operation location facts shared)
      (walk.lenient.operationInput operation location facts shared) :=
  Run.guarded_seq (guarded_parameterMembers walk operation _ _ _) fun set =>
    guarded_bodyMember walk operation location set facts.requestBody

/-- The member for the status raises nothing of its own. -/
theorem guarded_statusDeclaration (walk : Walk) (site : Site) (location status : String)
    (value : Json) (set : FragmentSet) :
    GuardedSet walk.context.options set.warnings
      (walk.statusDeclaration site location status value set)
      (walk.lenient.statusDeclaration site location status value set) := by
  unfold statusDeclaration
  split
  · exact guardedSet_pure rfl
  · refine Run.guarded_bind (guarded_responseDeclaration walk site location value)
      fun declared raised hraised => Run.guarded_pure ?_
    rw [FragmentSet.warnings_push, FragmentSet.warnings_extend, hraised, List.append_nil,
      List.nil_append]

/-- A response that the options leave out raises a warning that is never forbidden. -/
theorem guarded_responseDeclarations (walk : Walk) (operation : Site) (location operationId : String)
    (responses : List (String × Json)) (set : FragmentSet) (outputs : List TypeExpr) :
    GuardedFrom walk.context.options set.warnings
      (walk.responseDeclarations operation location operationId responses set outputs)
      (walk.lenient.responseDeclarations operation location operationId responses set outputs) := by
  induction responses generalizing set outputs with
  | nil => exact Run.guarded_pure (List.append_nil _).symm
  | cons response rest ih =>
    obtain ⟨status, value⟩ := response
    have hkeeps : walk.lenient.context.options.keepsStatus status =
        walk.context.options.keepsStatus status := rfl
    rw [responseDeclarations, responseDeclarations, hkeeps]
    split
    · exact Run.guarded_seq (guarded_statusDeclaration walk _ _ status value set) fun set => ih set _
    -- No option forbids the warning about a response that is left out, so it goes before those of
    -- the others without a further case.
    · refine ⟨fun hyields => ?_, (ih _ _).fails⟩
      obtain ⟨raised, hraised, hfollows⟩ := (ih _ _).follows hyields
      refine ⟨.responseFiltered operationId status :: raised, ?_, hfollows⟩
      rw [hraised]
      exact List.append_assoc _ _ _

theorem guarded_operationOutput (walk : Walk) (operation : Site) (location operationId : String)
    (facts : OperationFacts) :
    GuardedSet walk.context.options [] (walk.operationOutput operation location operationId facts)
      (walk.lenient.operationOutput operation location operationId facts) :=
  Run.guarded_seq (guarded_responseDeclarations walk operation location operationId _ _ _)
    fun _ => guardedSet_pure rfl

/-- A choice between a failure and a value, as a choice between runs. -/
theorem liftM_ite {α : Type} (failing : Bool) (failure : Failure) (value : α) :
    (liftM (if failing then .error failure else .ok value : Except Failure α) : Run α) =
      if failing then throw failure else pure value := by
  cases failing <;> rfl

/-- An operation without an id raises the warning that the options may forbid, and nothing else. -/
theorem guarded_operationId (walk : Walk) (method : Method) (path : String) (facts : OperationFacts) :
    Run.Guarded walk.context.options
      (liftM (walk.operationId method path facts) : Run (String × FragmentSet))
      (liftM (walk.lenient.operationId method path facts)) fun named raised =>
        named.2.warnings = raised := by
  unfold operationId
  cases facts.operationId with
  | some id => exact Run.guarded_pure rfl
  | none =>
    -- Without an id the options decide between a failure and a warning.
    simp only [liftM_ite]
    exact Run.guarded_warning rfl rfl

mutual

/-- Visiting a path item strictly is visiting it leniently, up to the first forbidden warning. -/
theorem guarded_visitPathItem (walk : Walk) (location path : String) (item : PathItem) :
    GuardedSet walk.context.options [] (walk.visitPathItem location path item)
      (walk.lenient.visitPathItem location path item) := by
  obtain ⟨reference, parameters, operations⟩ := item
  cases reference with
  | some reference =>
    rw [visitPathItem, visitPathItem]
    exact guardedSet_pure rfl
  | none =>
    -- The parameters that the operations share are taken along and not typed here.
    rw [visitPathItem, visitPathItem]
    exact guarded_visitOperations walk location path _ operations {}
termination_by structural item

/-- The operations of a path item raise their warnings in the order of the methods. -/
theorem guarded_visitOperations (walk : Walk) (location path : String) (shared : List Located)
    (operations : List MethodOperation) (set : FragmentSet) :
    GuardedSet walk.context.options set.warnings
      (walk.visitOperations location path shared operations set)
      (walk.lenient.visitOperations location path shared operations set) := by
  cases operations with
  | nil =>
    rw [visitOperations, visitOperations]
    exact guardedSet_pure rfl
  | cons each rest =>
    obtain ⟨method, operation⟩ := each
    rw [visitOperations, visitOperations]
    exact guarded_extend (guarded_visitOperation walk _ method path shared operation)
      fun set => guarded_visitOperations walk location path shared rest set
termination_by structural operations

/-- An operation raises the warnings of its id, its input, its output and its callbacks, in this
    order. -/
theorem guarded_visitOperation (walk : Walk) (location : String) (method : Method) (path : String)
    (shared : List Located) (operation : Operation) :
    GuardedSet walk.context.options []
      (walk.visitOperation location method path shared operation)
      (walk.lenient.visitOperation location method path shared operation) := by
  obtain ⟨facts, callbacks⟩ := operation
  rw [visitOperation, visitOperation]
  refine Run.guarded_bind (guarded_operationId walk method path facts) fun named raised hraised => ?_
  refine Run.guarded_bind (guarded_operationInput walk _ location facts shared)
    fun input raisedInput hinput => ?_
  refine Run.guarded_bind (guarded_operationOutput walk _ location _ facts)
    fun output raisedOutput houtput => ?_
  -- The callbacks start from the set of the three parts, so their warnings come last.
  refine (guarded_visitCallbacks walk _ callbacks _).mono fun done more hmore => ?_
  rw [hmore, FragmentSet.warnings_extend, FragmentSet.warnings_extend, hraised, hinput, houtput]
  simp only [List.nil_append, List.append_assoc]
termination_by structural operation

theorem guarded_visitCallbacks (walk : Walk) (location : String) (callbacks : List NamedCallback)
    (set : FragmentSet) :
    GuardedSet walk.context.options set.warnings (walk.visitCallbacks location callbacks set)
      (walk.lenient.visitCallbacks location callbacks set) := by
  cases callbacks with
  | nil =>
    rw [visitCallbacks, visitCallbacks]
    exact guardedSet_pure rfl
  | cons each rest =>
    obtain ⟨name, callback⟩ := each
    rw [visitCallbacks, visitCallbacks]
    exact guarded_extend (guarded_visitCallback walk _ callback)
      fun set => guarded_visitCallbacks walk location rest set
termination_by structural callbacks

/-- A callback that is a reference object raises nothing. -/
theorem guarded_visitCallback (walk : Walk) (location : String) (callback : Callback) :
    GuardedSet walk.context.options [] (walk.visitCallback location callback)
      (walk.lenient.visitCallback location callback) := by
  cases callback with
  | reference reference =>
    rw [visitCallback, visitCallback]
    exact guardedSet_pure rfl
  | items items =>
    rw [visitCallback, visitCallback]
    exact guarded_visitItems walk location items {}
termination_by structural callback

theorem guarded_visitItems (walk : Walk) (location : String) (items : List NamedItem)
    (set : FragmentSet) :
    GuardedSet walk.context.options set.warnings (walk.visitItems location items set)
      (walk.lenient.visitItems location items set) := by
  cases items with
  | nil =>
    rw [visitItems, visitItems]
    exact guardedSet_pure rfl
  | cons each rest =>
    obtain ⟨expression, item⟩ := each
    rw [visitItems, visitItems]
    exact guarded_extend (guarded_visitPathItem walk _ expression item)
      fun set => guarded_visitItems walk location rest set
termination_by structural items

end

/-! ### Documents -/

/-- The path items of a collection raise their warnings in the order of the collection. -/
theorem guarded_visitCollection (walk : Walk) (set : FragmentSet) (collection : String) :
    GuardedSet walk.context.options set.warnings (walk.visitCollection set collection)
      (walk.lenient.visitCollection set collection) :=
  Run.guarded_foldlM set fun _ (path, item) _ =>
    guarded_extend (guarded_visitPathItem walk _ path (PathItem.ofJson item))
      fun _ => guardedSet_pure rfl

/-- Noting the schemas of a document raises nothing. -/
theorem warnings_declaredSchemas (document : Json) (kind : DocumentKind) :
    (declaredSchemas document kind).warnings = [] := rfl

/-- The collections of a document raise their warnings one after the other. -/
theorem guarded_documentFragments (walk : Walk) :
    GuardedSet walk.context.options [] walk.documentFragments walk.lenient.documentFragments := by
  refine Run.guarded_seq (Run.guarded_foldlM {} fun set collection _ =>
    guarded_visitCollection walk set collection) fun set => guardedSet_pure ?_
  split
  · rw [FragmentSet.warnings_extend, warnings_declaredSchemas, List.append_nil]
  · rfl

/-- A bare schema raises what its typing raises. -/
theorem guarded_rootFragments (walk : Walk) :
    GuardedSet walk.context.options [] walk.rootFragments walk.lenient.rootFragments := by
  refine Run.guarded_bind (guarded_unitedTyping walk.document
    (((walk.context.moveTo Pointer.root).named walk.space).branded walk.space) none)
    fun typing raised hraised => Run.guarded_pure ?_
  rw [List.nil_append, List.append_nil, ← hraised]
  split
  · rw [FragmentSet.warnings_extend, warnings_declaredSchemas, List.append_nil]
    rfl
  · rfl

theorem guarded_schemaDeclaration (walk : Walk) (site : Site) (value : Json) :
    GuardedSet walk.context.options [] (walk.schemaDeclaration site value)
      (walk.lenient.schemaDeclaration site value) := by
  unfold schemaDeclaration
  cases site.path.getLast? with
  | some name =>
    exact Run.guarded_bind (guarded_unitedTyping value
      (((walk.context.moveTo site.reference).named name).branded name) none)
      fun typing raised hraised => Run.guarded_pure (by rw [List.append_nil]; exact hraised)
  | none =>
    exact Run.guarded_bind (guarded_unitedTyping value (walk.context.moveTo site.reference) none)
      fun typing raised hraised => Run.guarded_pure (by rw [List.append_nil]; exact hraised)

/-! ### Expansion -/

/-- Which kind of component a reference addresses does not depend on the options. -/
theorem guarded_expand (walk : Walk) (reference : String) :
    GuardedSet walk.context.options [] (walk.expand reference) (walk.lenient.expand reference) := by
  unfold expand
  -- Finding the target depends on no option.
  refine Run.guarded_bind (Run.guarded_refl _) fun value raised hraised => ?_
  subst hraised
  simp only
  split
  · exact guarded_requestBodyDeclaration walk _ _ _
  · exact guarded_parameterDeclaration walk _ _ _
  · exact guarded_responseDeclaration walk _ _ _
  · exact guarded_headerDeclaration walk _ _
  · exact guarded_visitCallback walk _ _
  · exact guarded_visitPathItem walk _ _ _
  · exact guarded_schemaDeclaration walk _ _

/-- The references of a pass raise their warnings in the order in which they are expanded. -/
theorem guarded_expandAll (walk : Walk) (references : List String) (set : FragmentSet) :
    GuardedSet walk.context.options set.warnings (walk.expandAll references set)
      (walk.lenient.expandAll references set) :=
  Run.guarded_foldlM set fun _ reference _ =>
    guarded_extend (guarded_expand walk reference) fun _ => guardedSet_pure rfl

/-- What is pending after a pass depends on the set alone, so as long as nothing is forbidden
    both walks go through the same passes. -/
theorem guarded_expandPasses (walk : Walk) (fuel : Nat) (expanded : List String) (set : FragmentSet)
    (stats : Statistics) :
    GuardedFrom walk.context.options set.warnings (walk.expandPasses fuel expanded set stats)
      (walk.lenient.expandPasses fuel expanded set stats) := by
  induction fuel generalizing expanded set stats with
  | zero =>
    unfold expandPasses
    split <;> exact Run.guarded_pure (List.append_nil _).symm
  | succ fuel ih =>
    unfold expandPasses
    split
    · exact Run.guarded_pure (List.append_nil _).symm
    · exact Run.guarded_seq (guarded_expandAll walk _ set) fun set => ih _ set _

/-- The whole expansion is guarded, since the bound on the passes does not depend on the options. -/
theorem guarded_expandFixedPoint (walk : Walk) (set : FragmentSet) (stats : Statistics) :
    GuardedFrom walk.context.options set.warnings (walk.expandFixedPoint set stats)
      (walk.lenient.expandFixedPoint set stats) :=
  guarded_expandPasses walk _ [] set stats

end Typewright.Api.Walk
