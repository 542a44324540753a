import Typewright.Api.Expansion
import Typewright.Proofs.Api.Declared
import Typewright.Proofs.Api.Parts
import Typewright.Proofs.Naming.Identifier

/-!
# Operations, path items and expansions keep to a register

Where a register takes what a walk meets, the walk keeps to it.  Visiting a path item does if the
register takes the parts of the path item (`gives_visitPathItem`), and so does the expansion of a
reference if it takes what the reference addresses.  The expansion moreover declares the reference
itself unless it addresses a path item or a callback (`gives_expand`).
-/

namespace Typewright

open Api

namespace Api.Site

/-- Where the type of a parameter of an operation is declared. -/
def parameter (operation : Site) (key : ParameterKey) : Site :=
  (operation.child "parameters" "Parameters").child (key.place ++ "." ++ key.name)
    (Naming.identifier key.name)

/-- Where the type of the request body of an operation is declared. -/
def requestBody (operation : Site) : Site :=
  operation.child "requestBody" "Body"

/-- Where the response of a status is declared. -/
def response (operation : Site) (status : String) : Site :=
  (operation.child "responses" "Responses").child status (Naming.identifier status)

end Api.Site

namespace Register

variable {R : Register} {walk : Walk} {set : FragmentSet} {operation : Site} {location : String}

/-- The declarations of an operation that every operation has may stand at the site. -/
structure TakesOperation (R : Register) (operation : Site) : Prop where
  input : R.Declares (operation.child "input" "Input")
  field : ∀ name, R.members ((operation.child "input" "Input").child name name).reference
  requestBody : R.Declares operation.requestBody
  namesRequestBody : R.Names operation.requestBody
  output : R.Declares (operation.child "output" "Output")

/-- The response of that status may be declared, and is mentioned by its path. -/
structure TakesStatus (R : Register) (operation : Site) (status : String) : Prop where
  names : R.Names (operation.response status)
  response : R.TakesResponse (operation.response status)
  status : R.members ((operation.response status).child "status" "status").reference

/-- The part of a path item keeps to the register, whichever operation it belongs to. -/
def Takes (R : Register) (walk : Walk) : Part → Prop
  | .link reference => R.announced reference
  | .operation id => id ≠ ""
  | .parameter value =>
    R.CoversIn walk value ∧
      (Pointer.target? value = none → ∀ id ≠ "",
        R.Declares ((walk.operationSite id).parameter (.ofJson value)) ∧
          R.Names ((walk.operationSite id).parameter (.ofJson value)))
  | .body value => R.CoversIn walk value
  | .response status value =>
    R.CoversIn walk value ∧ ∀ id ≠ "", R.TakesStatus (walk.operationSite id) status

/-! ### Input -/

/-- A part of an operation is announced where it is a reference object, and declared at its site
    if not. -/
theorem gives_declareOrRedirect {site : Site} {value : Json} {declaration : Run FragmentSet}
    (hcovers : R.CoversIn walk value) (h : R.Registered set)
    (hdeclaration : Pointer.target? value = none →
      R.Names site ∧ declaration.Gives (R.RegisteredAt site.reference)) :
    (walk.declareOrRedirect set site value declaration).Gives fun done =>
      R.Registered done.1 ∧ R.Provides done.1 done.2.target := by
  unfold Walk.declareOrRedirect
  split
  · next reference htarget =>
    obtain ⟨hannounced, hnames⟩ := hcovers.target htarget
    exact Run.gives_pure ⟨h.announce hannounced, provides_push_self hnames⟩
  · next htarget =>
    obtain ⟨hnames, hgives⟩ := hdeclaration htarget
    refine Run.gives_bind hgives fun declared hdeclared => ?_
    refine Run.gives_pure ⟨h.extend hdeclared.registered, ?_⟩
    exact ⟨site.reference, FragmentSet.stored_extend hdeclared.declared.stored, hnames⟩

/-- A member that redirects to a provided path is added. -/
theorem Registered.push_member {site : Site} {optional : Bool} {redirect : Redirect}
    (h : R.Registered set) (hprovides : R.Provides set redirect.target)
    (hsite : R.members site.reference) :
    R.Registered (set.push (site.declareMember optional (.redirect redirect))) := by
  refine h.push hsite fun path hpath => ?_
  rw [List.mem_singleton.1 hpath]
  exact hprovides.push _

/-- A value that is no reference object leads to itself. -/
theorem follow_eq_of_target?_eq_none {document value resolved : Json}
    (htarget : Pointer.target? value = none) (h : Pointer.follow document value = .ok resolved) :
    resolved = value := by
  unfold Pointer.follow at h
  rw [htarget] at h
  exact (Except.ok.inj h).symm

/-- The members of an input mention only the targets of its parameters. -/
theorem gives_parameterMembers (hR : R.TakesEnums) {id : String} (hid : id ≠ "")
    (hoperation : R.TakesOperation (walk.operationSite id)) {parameters : List Located}
    (hparameters : ∀ parameter ∈ parameters, R.Takes walk (.parameter parameter.value))
    {taken : List String} (h : R.Registered set) :
    (walk.parameterMembers (walk.operationSite id) parameters taken set).Gives R.Registered := by
  induction parameters generalizing taken set with
  | nil => exact Run.gives_pure h
  | cons parameter rest ih =>
    obtain ⟨hcovers, hsites⟩ := hparameters parameter List.mem_cons_self
    rw [Walk.parameterMembers]
    refine Run.gives_bind (Run.gives_liftExcept (P := fun resolved =>
      Pointer.target? parameter.value = none → resolved = parameter.value)
      fun resolved hresolved htarget => follow_eq_of_target?_eq_none htarget hresolved)
      fun resolved hresolved => ?_
    refine Run.gives_bind (gives_declareOrRedirect hcovers h fun htarget => ?_)
      fun done hdone => ?_
    · -- A parameter that is no reference object is its own resolution.
      rw [hresolved htarget]
      obtain ⟨hdeclares, hnames⟩ := hsites htarget id hid
      exact ⟨hnames, gives_parameterDeclaration hR hcovers hdeclares⟩
    · exact ih (fun parameter hparameter => hparameters parameter (List.mem_cons_of_mem _ hparameter))
        (hdone.1.push_member hdone.2 (hoperation.field _))

theorem gives_bodyMember (hR : R.TakesEnums) (hoperation : R.TakesOperation operation)
    {body : Option Json} (hbody : ∀ value ∈ body, R.CoversIn walk value) (h : R.Registered set) :
    (walk.bodyMember operation location set body).Gives R.Registered := by
  cases body with
  | none => exact Run.gives_pure h
  | some value =>
    have hcovers := hbody value rfl
    refine Run.gives_bind (Run.gives_liftExcept (P := fun _ => True) fun _ _ => trivial)
      fun required _ => ?_
    refine Run.gives_bind (gives_declareOrRedirect hcovers h fun _ => ?_) fun done hdone => ?_
    · exact ⟨hoperation.namesRequestBody,
        gives_requestBodyDeclaration hR hcovers hoperation.requestBody⟩
    · exact Run.gives_pure (hdone.1.push_member hdone.2 (hoperation.field "body"))

/-- A parameter comes from the path item or from the operation. -/
theorem mem_of_mem_effectiveParameters {shared own : List Located} {parameter : Located}
    (h : parameter ∈ walk.effectiveParameters shared own) : parameter ∈ shared ∨ parameter ∈ own :=
  (List.mem_append.1 h).imp_left List.mem_of_mem_filter

theorem map_value_items (location : String) (values : List Json) :
    (Located.items location values).map (·.value) = values :=
  List.ext_getElem (by simp [Located.items]) fun index _ _ => by simp [Located.items]

theorem value_mem_of_mem_items {values : List Json} {parameter : Located}
    (h : parameter ∈ Located.items location values) : parameter.value ∈ values := by
  have hvalue := List.mem_map_of_mem (f := (·.value)) h
  rwa [map_value_items] at hvalue

/-- All that an input mentions is announced or declared with it. -/
theorem gives_operationInput (hR : R.TakesEnums) {id : String} (hid : id ≠ "")
    (hoperation : R.TakesOperation (walk.operationSite id)) {facts : OperationFacts}
    (hfacts : ∀ part ∈ facts.parts, R.Takes walk part) {shared : List Located}
    (hshared : ∀ parameter ∈ shared, R.Takes walk (.parameter parameter.value)) :
    (walk.operationInput (walk.operationSite id) location facts shared).Gives R.Registered := by
  unfold Walk.operationInput
  refine Run.gives_bind (gives_parameterMembers hR hid hoperation (fun parameter hparameter => ?_) ?_)
    fun set hset => gives_bodyMember hR hoperation (fun value hvalue => ?_) hset
  · rcases mem_of_mem_effectiveParameters hparameter with hparameter | hparameter
    · exact hshared parameter hparameter
    · refine hfacts _ (List.mem_append_left _ (List.mem_append_left _ (List.mem_append_right _ ?_)))
      exact List.mem_map_of_mem (value_mem_of_mem_items hparameter)
  · exact registered_empty.push hoperation.input fun _ hpath => absurd hpath List.not_mem_nil
  · exact hfacts (.body value) (List.mem_append_left _ (List.mem_append_right _
      (List.mem_map_of_mem (Option.mem_toList.2 hvalue))))

/-! ### Output -/

/-- A set in which the declaration of a status stands. -/
theorem gives_statusDeclaration (hR : R.TakesEnums) {status : String} {value : Json}
    (hcovers : R.CoversIn walk value) (hstatus : R.TakesStatus operation status)
    (h : R.Registered set) :
    (walk.statusDeclaration (operation.response status) location status value set).Gives fun done =>
      R.Registered done ∧ done.Stored (operation.response status).reference ∧
        ∀ path, R.Provides set path → R.Provides done path := by
  unfold Walk.statusDeclaration
  split
  · next reference htarget =>
    obtain ⟨hannounced, hnames⟩ := hcovers.target htarget
    refine Run.gives_pure ⟨(h.announce hannounced).push hstatus.response.declares ?_,
      FragmentSet.stored_push_self, fun path hpath => (hpath.push _).push _⟩
    intro path hpath
    obtain ⟨type, htype, hpath⟩ := TypeExpr.mem_mentions_intersectionOf_iff.1 hpath
    rcases List.mem_cons.1 htype with rfl | htype
    · -- The status itself is a literal or any number.
      rw [TypeExpr.mentions, List.mem_append, TypeExpr.mem_mentionsOfProperties_iff] at hpath
      unfold Walk.statusType at hpath
      split at hpath <;> simp [TypeExpr.mentions, TypeExpr.mentionsOfIndex] at hpath
    · rw [List.mem_singleton.1 htype] at hpath
      rw [List.mem_singleton.1 hpath]
      exact (provides_push_self hnames).push _
  · refine Run.gives_bind (gives_responseDeclaration hR hcovers hstatus.response)
      fun declared hdeclared => ?_
    refine Run.gives_pure ⟨(h.extend hdeclared.registered).push hstatus.status ?_,
      (FragmentSet.stored_extend hdeclared.declared.stored).push _,
      fun path hpath => (hpath.extend _).push _⟩
    intro path hpath
    unfold Walk.statusType at hpath
    split at hpath <;> exact absurd hpath List.not_mem_nil

/-- Each output so far stays provided while further responses are declared. -/
theorem gives_responseDeclarations (hR : R.TakesEnums) {operationId : String}
    {responses : List (String × Json)}
    (hresponses : ∀ response ∈ responses,
      R.CoversIn walk response.2 ∧ R.TakesStatus operation response.1)
    {outputs : List TypeExpr} (h : R.Registered set)
    (houtputs : ∀ type ∈ outputs, ∀ path ∈ type.mentions, R.Provides set path) :
    (walk.responseDeclarations operation location operationId responses set outputs).Gives fun done =>
      R.Registered done.1 ∧ ∀ type ∈ done.2, ∀ path ∈ type.mentions, R.Provides done.1 path := by
  induction responses generalizing set outputs with
  | nil => exact Run.gives_pure ⟨h, houtputs⟩
  | cons response rest ih =>
    obtain ⟨status, value⟩ := response
    obtain ⟨hcovers, hstatus⟩ := hresponses _ List.mem_cons_self
    have hrest : ∀ response ∈ rest, R.CoversIn walk response.2 ∧ R.TakesStatus operation response.1 :=
      fun response hresponse => hresponses response (List.mem_cons_of_mem _ hresponse)
    rw [Walk.responseDeclarations]
    split
    · refine Run.gives_bind (gives_statusDeclaration hR hcovers hstatus h) fun done hdone => ?_
      obtain ⟨hregistered, hstored, hkeeps⟩ := hdone
      refine ih hrest hregistered fun type htype path hpath => ?_
      -- The outputs so far are still provided, and the new one is the declaration just stored.
      rcases List.mem_append.1 htype with htype | htype
      · exact hkeeps path (houtputs type htype path hpath)
      · rw [List.mem_singleton.1 htype] at hpath
        rw [List.mem_singleton.1 hpath]
        exact ⟨_, hstored, hstatus.names⟩
    · exact ih hrest (h.warn _) houtputs

theorem gives_operationOutput (hR : R.TakesEnums) {id operationId : String} (hid : id ≠ "")
    (hoperation : R.TakesOperation (walk.operationSite id)) {facts : OperationFacts}
    (hfacts : ∀ part ∈ facts.parts, R.Takes walk part) :
    (walk.operationOutput (walk.operationSite id) location operationId facts).Gives R.Registered := by
  unfold Walk.operationOutput
  refine Run.gives_bind (gives_responseDeclarations hR ?_ registered_empty ?_) fun done hdone => ?_
  · rintro ⟨status, value⟩ hresponse
    have htakes := hfacts (.response status value)
      (List.mem_append_right _ (List.mem_map.2 ⟨_, hresponse, rfl⟩))
    exact ⟨htakes.1, htakes.2 id hid⟩
  · exact fun type htype => absurd htype List.not_mem_nil
  · refine Run.gives_pure (hdone.1.push hoperation.output fun path hpath => ?_)
    obtain ⟨type, htype, hpath⟩ := TypeExpr.mem_mentions_unionOf_iff.1 hpath
    exact (hdone.2 type htype path hpath).push _

/-! ### Operations and path items -/

/-- The method alone makes an id nonempty. -/
theorem synthesizedId_ne_empty (method : Method) (path : String) : synthesizedId method path ≠ "" := by
  intro h
  unfold synthesizedId at h
  simp only [List.map_cons, String.join_cons] at h
  exact Naming.identifier_ne_empty _ (String.append_eq_empty_iff.1 h).1

/-- An operation has an identifier, its own or one that is made, and it is not empty. -/
theorem gives_operationId {method : Method} {path : String} {facts : OperationFacts}
    (hfacts : ∀ part ∈ facts.parts, R.Takes walk part) :
    Run.Gives (liftM (walk.operationId method path facts) : Run (String × FragmentSet)) fun done =>
      done.1 ≠ "" ∧ R.Registered done.2 := by
  refine Run.gives_liftExcept fun done hdone => ?_
  unfold Walk.operationId at hdone
  split at hdone
  · next id hid =>
    rw [← Except.ok.inj hdone]
    refine ⟨hfacts (.operation id) ?_, registered_empty⟩
    refine List.mem_append_left _ (List.mem_append_left _ (List.mem_append_left _ ?_))
    exact List.mem_map_of_mem (Option.mem_toList.2 hid)
  · split at hdone
    · exact absurd hdone (by simp)
    · rw [← Except.ok.inj hdone]
      exact ⟨synthesizedId_ne_empty method path, registered_empty⟩

/-- The register takes the enums and the operations that a walk may declare. -/
structure SuitsOperations (R : Register) (walk : Walk) : Prop where
  enums : R.TakesEnums
  operation : ∀ id ≠ "", R.TakesOperation (walk.operationSite id)

mutual

/-- Visiting a path item keeps to a register that takes its parts. -/
theorem gives_visitPathItem (hR : R.SuitsOperations walk) (location path : String) (item : PathItem)
    (h : ∀ part ∈ item.parts, R.Takes walk part) :
    (walk.visitPathItem location path item).Gives R.Registered := by
  obtain ⟨reference, parameters, operations⟩ := item
  rw [PathItem.parts, List.forall_mem_append, List.forall_mem_append] at h
  obtain ⟨⟨hreference, hparameters⟩, hoperations⟩ := h
  cases reference with
  | some reference =>
    have hannounced : R.announced reference := hreference (.link reference) List.mem_cons_self
    rw [Walk.visitPathItem]
    exact Run.gives_pure (registered_empty.announce hannounced)
  | none =>
    rw [Walk.visitPathItem]
    refine gives_visitOperations hR location path _ operations hoperations ?_ {} registered_empty
    exact fun parameter hparameter =>
      hparameters _ (List.mem_map_of_mem (value_mem_of_mem_items hparameter))
termination_by structural item

/-- Operations, callbacks and the path items inside them are visited by mutual recursion, each
    handing its set on. -/
theorem gives_visitOperations (hR : R.SuitsOperations walk) (location path : String)
    (shared : List Located) (operations : List MethodOperation)
    (h : ∀ part ∈ partsOfOperations operations, R.Takes walk part)
    (hshared : ∀ parameter ∈ shared, R.Takes walk (.parameter parameter.value))
    (set : FragmentSet) (hset : R.Registered set) :
    (walk.visitOperations location path shared operations set).Gives R.Registered := by
  cases operations with
  | nil => exact Run.gives_pure hset
  | cons each rest =>
    obtain ⟨method, operation⟩ := each
    rw [partsOfOperations, List.forall_mem_append] at h
    rw [Walk.visitOperations]
    refine Run.gives_bind (gives_visitOperation hR _ method path shared operation h.1 hshared)
      fun visited hvisited => ?_
    exact gives_visitOperations hR location path shared rest h.2 hshared _ (hset.extend hvisited)
termination_by structural operations

theorem gives_visitOperation (hR : R.SuitsOperations walk) (location : String) (method : Method)
    (path : String) (shared : List Located) (operation : Operation)
    (h : ∀ part ∈ operation.parts, R.Takes walk part)
    (hshared : ∀ parameter ∈ shared, R.Takes walk (.parameter parameter.value)) :
    (walk.visitOperation location method path shared operation).Gives R.Registered := by
  obtain ⟨facts, callbacks⟩ := operation
  rw [Operation.parts, List.forall_mem_append] at h
  obtain ⟨hfacts, hcallbacks⟩ := h
  rw [Walk.visitOperation]
  refine Run.gives_bind (gives_operationId hfacts) fun named hnamed => ?_
  obtain ⟨hid, hset⟩ := hnamed
  have hoperation := hR.operation named.1 hid
  refine Run.gives_bind (gives_operationInput hR.enums hid hoperation hfacts hshared)
    fun input hinput => ?_
  refine Run.gives_bind (gives_operationOutput hR.enums hid hoperation hfacts) fun output houtput => ?_
  exact gives_visitCallbacks hR _ callbacks hcallbacks _ ((hset.extend hinput).extend houtput)
termination_by structural operation

theorem gives_visitCallbacks (hR : R.SuitsOperations walk) (location : String)
    (callbacks : List NamedCallback) (h : ∀ part ∈ partsOfCallbacks callbacks, R.Takes walk part)
    (set : FragmentSet) (hset : R.Registered set) :
    (walk.visitCallbacks location callbacks set).Gives R.Registered := by
  cases callbacks with
  | nil => exact Run.gives_pure hset
  | cons each rest =>
    obtain ⟨name, callback⟩ := each
    rw [partsOfCallbacks, List.forall_mem_append] at h
    rw [Walk.visitCallbacks]
    refine Run.gives_bind (gives_visitCallback hR _ callback h.1) fun visited hvisited => ?_
    exact gives_visitCallbacks hR location rest h.2 _ (hset.extend hvisited)
termination_by structural callbacks

theorem gives_visitCallback (hR : R.SuitsOperations walk) (location : String) (callback : Callback)
    (h : ∀ part ∈ callback.parts, R.Takes walk part) :
    (walk.visitCallback location callback).Gives R.Registered := by
  cases callback with
  | reference reference =>
    have hannounced : R.announced reference := h (.link reference) List.mem_cons_self
    exact Run.gives_pure (registered_empty.announce hannounced)
  | items items => exact gives_visitItems hR location items h {} registered_empty
termination_by structural callback

theorem gives_visitItems (hR : R.SuitsOperations walk) (location : String) (items : List NamedItem)
    (h : ∀ part ∈ partsOfItems items, R.Takes walk part) (set : FragmentSet)
    (hset : R.Registered set) : (walk.visitItems location items set).Gives R.Registered := by
  cases items with
  | nil => exact Run.gives_pure hset
  | cons each rest =>
    obtain ⟨expression, item⟩ := each
    rw [partsOfItems, List.forall_mem_append] at h
    rw [Walk.visitItems]
    refine Run.gives_bind (gives_visitPathItem hR _ expression item h.1) fun visited hvisited => ?_
    exact gives_visitItems hR location rest h.2 _ (hset.extend hvisited)
termination_by structural items

end

/-! ### Expansion -/

/-- What a reference addresses keeps to the register: the parts of a path item or a callback, the
    references in any other value, and the site where that is declared. -/
def TakesTarget (R : Register) (walk : Walk) (reference : String) (value : Json) : Prop :=
  match Walk.bucketOf (Pointer.split reference) with
  | "callbacks" => ∀ part ∈ (Callback.ofJson value).parts, R.Takes walk part
  | "pathItems" => ∀ part ∈ (PathItem.ofJson value).parts, R.Takes walk part
  | _ =>
    R.CoversIn walk value ∧ R.TakesResponse { reference, path := walk.context.pathOf reference }

theorem gives_schemaDeclaration (hR : R.TakesEnums) {site : Site} {value : Json}
    (hcovers : R.CoversIn walk value) (hsite : R.Declares site) :
    (walk.schemaDeclaration site value).Gives (R.RegisteredAt site.reference) := by
  unfold Walk.schemaDeclaration
  refine Run.gives_bind (Run.gives_map (gives_typing hR value _ none ?_) fun _ htyping =>
    htyping.united) fun typing htyping => ?_
  · split <;> exact hcovers
  · exact Run.gives_pure (registeredAt_typeDeclaration hsite htyping)

end Register

/-- The reference addresses a path item or a callback among the components; these declare nothing
    under their own reference. -/
def Api.AddressesPaths (reference : String) : Prop :=
  ∃ name, Pointer.split reference = [componentsKey, "callbacks", name] ∨
    Pointer.split reference = [componentsKey, "pathItems", name]

theorem Api.Walk.split_of_bucketOf {path : List String} {bucket : String}
    (h : Walk.bucketOf path = bucket) (hbucket : bucket ≠ "schemas") :
    ∃ name, path = [componentsKey, bucket, name] := by
  unfold Walk.bucketOf at h
  split at h
  · next components bucket' name =>
    split at h
    · next hcomponents => exact ⟨name, by rw [hcomponents, h]⟩
    · exact absurd h.symm hbucket
  · exact absurd h.symm hbucket

namespace Register

variable {R : Register} {walk : Walk}

/-- Expanding a reference keeps to a register that takes what it addresses, and declares the
    reference unless it addresses a path item or a callback. -/
theorem gives_expand (hR : R.SuitsOperations walk) {reference : String}
    (h : ∀ value, Pointer.resolve walk.document (Pointer.split reference) = .ok value →
      R.TakesTarget walk reference value) :
    (walk.expand reference).Gives fun set =>
      R.Registered set ∧ (¬ AddressesPaths reference → set.Declared reference) := by
  unfold Walk.expand
  refine Run.gives_bind (Run.gives_liftExcept h) fun value htarget => ?_
  unfold TakesTarget at htarget
  -- All but callbacks and path items are declared under the reference itself.
  have hdeclared {run : Run FragmentSet} (hrun : run.Gives (R.RegisteredAt reference)) :
      run.Gives fun set =>
        R.Registered set ∧ (¬ AddressesPaths reference → set.Declared reference) :=
    hrun.mono fun set hset => ⟨hset.registered, fun _ => hset.declared⟩
  simp only
  split
  · next hbucket =>
    rw [hbucket] at htarget
    exact hdeclared (gives_requestBodyDeclaration hR.enums htarget.1 htarget.2.declares)
  · next hbucket =>
    rw [hbucket] at htarget
    exact hdeclared (gives_parameterDeclaration hR.enums htarget.1 htarget.2.declares)
  · next hbucket =>
    rw [hbucket] at htarget
    exact hdeclared (gives_responseDeclaration hR.enums htarget.1 htarget.2)
  · next hbucket =>
    rw [hbucket] at htarget
    exact hdeclared (gives_headerDeclaration hR.enums htarget.1 htarget.2.declares)
  · next hbucket =>
    rw [hbucket] at htarget
    obtain ⟨name, hname⟩ := Walk.split_of_bucketOf hbucket (by decide)
    exact (gives_visitCallback hR _ _ htarget).mono fun set hset =>
      ⟨hset, fun hpaths => absurd ⟨name, .inl hname⟩ hpaths⟩
  · next hbucket =>
    rw [hbucket] at htarget
    obtain ⟨name, hname⟩ := Walk.split_of_bucketOf hbucket (by decide)
    exact (gives_visitPathItem hR _ _ _ htarget).mono fun set hset =>
      ⟨hset, fun hpaths => absurd ⟨name, .inr hname⟩ hpaths⟩
  · next _ _ _ _ hcallbacks hpathItems =>
    split at htarget
    · next hbucket => exact absurd hbucket hcallbacks
    · next hbucket => exact absurd hbucket hpathItems
    · exact hdeclared (gives_schemaDeclaration hR.enums htarget.1 htarget.2.declares)

/-- Expanding a reference that addresses a schema keeps to the register and declares it. -/
theorem gives_expand_of_schema (hR : R.TakesEnums) {reference : String}
    (hbucket : Walk.bucketOf (Pointer.split reference) = "schemas")
    (hsite : R.declares reference (walk.context.pathOf reference))
    (h : ∀ value, Pointer.resolve walk.document (Pointer.split reference) = .ok value →
      R.CoversIn walk value) :
    (walk.expand reference).Gives (R.RegisteredAt reference) := by
  unfold Walk.expand
  refine Run.gives_bind (Run.gives_liftExcept h) fun value hcovers => ?_
  simp only [hbucket]
  exact gives_schemaDeclaration hR hcovers hsite

/-! ### Starting points -/

/-- The schemas that a document declares are announced and mention nothing. -/
theorem registered_declaredSchemas {document : Json} {kind : DocumentKind}
    (h : ∀ reference ∈ declaredSchemaReferences document kind, R.announced reference) :
    R.Registered (Walk.declaredSchemas document kind) := by
  refine ⟨fun fragment hfragment => ?_, fun fragment hfragment path hpath => ?_⟩ <;>
    obtain ⟨reference, hreference, rfl⟩ :=
      List.mem_map.1 ((Fragment.mem_combine hfragment).resolve_left List.not_mem_nil)
  · exact h reference hreference
  · exact absurd hpath List.not_mem_nil

/-- The fragments that a document starts from keep to a register that takes the parts of its path
    items and its named schemas. -/
theorem gives_documentFragments (hR : R.SuitsOperations walk)
    (hparts : ∀ collection ∈ collections,
      ∀ entry ∈ (walk.document.entries? collection).getD [],
        ∀ part ∈ (PathItem.ofJson entry.2).parts, R.Takes walk part)
    (hschemas : ∀ reference ∈ declaredSchemaReferences walk.document .api, R.announced reference) :
    walk.documentFragments.Gives R.Registered := by
  unfold Walk.documentFragments
  refine Run.gives_bind (P := R.Registered) (Run.gives_foldlM registered_empty ?_) fun set hset => ?_
  · intro set collection hcollection hset
    refine Run.gives_foldlM hset fun set entry hentry hset => ?_
    refine Run.gives_bind (gives_visitPathItem hR _ _ _ (hparts collection hcollection entry hentry))
      fun visited hvisited => Run.gives_pure (hset.extend hvisited)
  · refine Run.gives_pure ?_
    split
    · exact hset.extend (registered_declaredSchemas hschemas)
    · exact hset

theorem gives_rootFragments (hR : R.TakesEnums) (hcovers : R.CoversIn walk walk.document)
    (hroot : R.declares Pointer.root [walk.space])
    (hschemas : ∀ reference ∈ declaredSchemaReferences walk.document .schema,
      R.announced reference) :
    walk.rootFragments.Gives R.Registered := by
  unfold Walk.rootFragments
  refine Run.gives_bind (Run.gives_map (gives_typing hR walk.document _ none hcovers)
    fun _ htyping => htyping.united) fun typing htyping => Run.gives_pure ?_
  have hroot : R.Registered ((({} : FragmentSet).extend typing.emitted).push
      (.statement Pointer.root walk.space (TypeExpr.unionOf typing.types))) :=
    registered_empty.push_typing htyping hroot rfl
  split
  · exact hroot.extend (registered_declaredSchemas hschemas)
  · exact hroot

end Register

namespace Api.Walk

variable {walk : Walk}

/-- The references of the fragments that a document starts from are distinct. -/
theorem nodup_documentFragments (walk : Walk) :
    walk.documentFragments.Gives fun set => (set.fragments.map Fragment.reference).Nodup := by
  unfold documentFragments
  refine Run.gives_bind (P := fun set => (set.fragments.map Fragment.reference).Nodup)
    (Run.gives_foldlM List.nodup_nil ?_) fun set hset => ?_
  · intro set collection _ hset
    refine Run.gives_foldlM hset fun set entry _ hset => ?_
    exact Run.gives_bind (P := fun _ => True) (fun _ _ _ _ => trivial) fun visited _ =>
      Run.gives_pure (FragmentSet.nodup_extend hset visited)
  · refine Run.gives_pure ?_
    split
    · exact FragmentSet.nodup_extend hset _
    · exact hset

theorem nodup_rootFragments (walk : Walk) :
    walk.rootFragments.Gives fun set => (set.fragments.map Fragment.reference).Nodup := by
  unfold rootFragments
  refine Run.gives_bind (P := fun _ => True) (fun _ _ _ _ => trivial) fun typing _ =>
    Run.gives_pure ?_
  have hempty : (({} : FragmentSet).fragments.map Fragment.reference).Nodup := List.nodup_nil
  have hroot := FragmentSet.nodup_push (FragmentSet.nodup_extend hempty typing.emitted)
    (.statement Pointer.root walk.space (TypeExpr.unionOf typing.types))
  split
  · exact FragmentSet.nodup_extend hroot _
  · exact hroot

end Api.Walk

end Typewright
