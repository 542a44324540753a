import Typewright.Api.Expansion
import Typewright.Proofs.Fragment.Register
import Typewright.Proofs.Run.Within
import Typewright.Proofs.Schema.Normal

/-!
# What every declaration keeps

Declarations of parameters, bodies, headers, responses and schemas are made in few ways: from the empty
set, by announcing references, by storing fragments at their sites, by putting sets together, and by
warning of responses that are left out.  What all of these keep (`DeclarationRules`), every declaration
keeps: one lemma for each kind of declaration.

The fragments that are stored are normal, provided operations stand under paths of identifiers.
-/

namespace Typewright.Api

open Naming (IsPath)

open Schema (NormalWith normal_ofType)

open Run (GivesWithin givesWithin_pure givesWithin_throw givesWithin_bind givesWithin_map
  givesWithin_bind_liftExcept)

/-- A response at the site may own its reference and those of its members. -/
structure OwnsResponse (own : String → Prop) (site : Site) : Prop where
  declared : own site.reference
  body : own (site.child "body" "body").reference
  headers : own (site.child "headers" "headers").reference
  header : ∀ name, own ((site.child "headers" "headers").child name name).reference

/-- Whatever is below an owned reference is owned. -/
def OwnsBelow (own : String → Prop) : Prop :=
  ∀ reference segment, own reference → own (Pointer.child reference segment)

/-- Who owns a reference and all below it owns a response there. -/
theorem OwnsBelow.ownsResponse {own : String → Prop} {site : Site} (hbelow : OwnsBelow own)
    (h : own site.reference) : OwnsResponse own site :=
  ⟨h, hbelow _ _ h, hbelow _ _ h, fun _ => hbelow _ _ (hbelow _ _ h)⟩

/-- What a property of sets has to keep to hold of all that is declared under references that satisfy
    `own`.  If the operations are `named` by paths of identifiers, what is declared is normal. -/
structure DeclarationRules (final : EnumNames) (own : String → Prop) (named : Prop)
    (P : FragmentSet → Prop) : Prop where
  empty : P {}
  announce : ∀ {set} reference, P set → P (set.push (.assumed reference))
  push : ∀ {set fragment}, P set → own fragment.reference → (named → fragment.Normal) →
    P (set.push fragment)
  extend : ∀ {set other}, P set → P other → P (set.extend other)
  filtered : ∀ {set} operationId status, P set → P (set.warn (.responseFiltered operationId status))
  schema : ∀ schema context, GivesWithin final ((Schema.ofJson schema).unitedTyping context none)
    fun typing => P typing.emitted

namespace DeclarationRules

open Walk

variable {final : EnumNames} {own : String → Prop} {named : Prop} {P : FragmentSet → Prop} {walk : Walk}
  {set : FragmentSet} {site operation : Site} {location hint : String} {value : Json}

/-! ### Types -/

theorem emittedOf (rules : DeclarationRules final own named P) {typings : List Typing}
    (h : ∀ typing ∈ typings, NormalWith P typing) : P (Schema.emittedOf typings) :=
  Register.foldl_extend_induction (P := P) rules.empty fun _ typing htyping hset =>
    rules.extend hset (h typing htyping).2

/-- The rules hand every schema over to the rules for typings. -/
theorem givesWithin_schema (rules : DeclarationRules final own named P) (schema : Json)
    (context : Context) :
    GivesWithin final ((Schema.ofJson schema).unitedTyping context none) (NormalWith P) :=
  ((Schema.givesNormal_unitedTyping final schema context none).mono fun _ h => h.1).and
    (rules.schema schema context)

theorem normalWith_unknown (rules : DeclarationRules final own named P) :
    NormalWith P (Typing.ofType .unknown) :=
  ⟨normal_ofType TypeExpr.normal_unknown, rules.empty⟩

theorem givesWithin_ownSchemaTyping (rules : DeclarationRules final own named P) :
    GivesWithin final (walk.ownSchemaTyping location hint value) (NormalWith P) := by
  unfold ownSchemaTyping
  split
  · exact rules.givesWithin_schema _ _
  · exact givesWithin_pure rules.normalWith_unknown

theorem givesWithin_contentTyping (rules : DeclarationRules final own named P)
    {content : List (String × Json)} :
    GivesWithin final (walk.contentTyping location hint content) (NormalWith P) := by
  have hmedia : GivesWithin final (walk.mediaTypings location hint content) fun typings =>
      ∀ typing ∈ typings, NormalWith P typing := by
    induction content with
    | nil => exact givesWithin_pure fun typing htyping => absurd htyping List.not_mem_nil
    | cons media rest ih =>
      rw [mediaTypings]
      refine givesWithin_bind rules.givesWithin_ownSchemaTyping fun first => ?_
      refine givesWithin_bind ih fun others => ?_
      exact givesWithin_pure fun hothers hfirst => List.forall_mem_cons.2 ⟨hfirst, hothers⟩
  refine givesWithin_bind hmedia fun typings => givesWithin_pure fun h => ⟨?_, rules.emittedOf h⟩
  refine normal_ofType (TypeExpr.normal_unionOf (List.forall_mem_map.2 fun typing htyping => ?_))
  exact (h typing htyping).1.unionType

theorem givesWithin_parameterTyping (rules : DeclarationRules final own named P) :
    GivesWithin final (walk.parameterTyping location hint value) (NormalWith P) := by
  unfold parameterTyping
  split <;> exact rules.givesWithin_ownSchemaTyping

theorem givesWithin_headerTyping (rules : DeclarationRules final own named P) :
    GivesWithin final (walk.headerTyping location hint value) (NormalWith P) := by
  unfold headerTyping
  split
  · exact givesWithin_throw
  · exact rules.givesWithin_ownSchemaTyping

/-! ### Declarations -/

/-- A fragment of the type of a typing is added after what the typing brings. -/
theorem absorb_push (rules : DeclarationRules final own named P) {typing : Typing} {fragment : Fragment}
    (h : P set) (htyping : NormalWith P typing) (hown : own fragment.reference)
    (hfragment : fragment.Normal) : P ((set.absorb typing).1.push fragment) :=
  rules.push (rules.extend h htyping.2) hown fun _ => hfragment

/-- A declared type is the typing with one owned fragment more. -/
theorem typeDeclaration (rules : DeclarationRules final own named P) {typing : Typing}
    (htyping : NormalWith P typing) (hown : own site.reference) :
    P (Walk.typeDeclaration site typing) :=
  rules.absorb_push rules.empty htyping hown htyping.1.unionType

/-- A redirect is an owned fragment beside an announced reference. -/
theorem redirectDeclaration (rules : DeclarationRules final own named P) (reference : String)
    (hown : own site.reference) : P (walk.redirectDeclaration site reference) :=
  rules.push (rules.announce reference rules.empty) hown fun _ => isPath_declarationPath _ _

theorem givesWithin_parameterDeclaration (rules : DeclarationRules final own named P)
    (hown : own site.reference) :
    GivesWithin final (walk.parameterDeclaration site location value) P := by
  unfold parameterDeclaration
  split
  · exact givesWithin_pure (rules.redirectDeclaration _ hown)
  · exact givesWithin_map rules.givesWithin_parameterTyping fun _ htyping =>
      rules.typeDeclaration htyping hown

theorem givesWithin_requestBodyDeclaration (rules : DeclarationRules final own named P)
    (hown : own site.reference) :
    GivesWithin final (walk.requestBodyDeclaration site location value) P := by
  unfold requestBodyDeclaration
  split
  · exact givesWithin_pure (rules.redirectDeclaration _ hown)
  · simp only
    split
    · exact givesWithin_bind rules.givesWithin_contentTyping fun typing =>
        givesWithin_pure fun htyping => rules.typeDeclaration htyping hown
    · exact givesWithin_pure (rules.typeDeclaration rules.normalWith_unknown hown)

theorem givesWithin_headerDeclaration (rules : DeclarationRules final own named P)
    (hown : own site.reference) : GivesWithin final (walk.headerDeclaration site value) P := by
  unfold headerDeclaration
  split
  · exact givesWithin_pure (rules.redirectDeclaration _ hown)
  · exact givesWithin_map rules.givesWithin_headerTyping fun _ htyping =>
      rules.typeDeclaration htyping hown

theorem givesWithin_schemaDeclaration (rules : DeclarationRules final own named P)
    (hown : own site.reference) : GivesWithin final (walk.schemaDeclaration site value) P := by
  unfold schemaDeclaration
  exact givesWithin_bind (rules.givesWithin_schema value _) fun typing =>
    givesWithin_pure fun htyping => rules.typeDeclaration htyping hown

/-! ### Responses -/

/-- Headers add their typings and members one after the other, each step keeping the property. -/
theorem givesWithin_headerMembers (rules : DeclarationRules final own named P)
    {headers : List (String × Json)} {anyRequired : Bool}
    (hown : ∀ name, own (site.child name name).reference) :
    GivesWithin final (walk.headerMembers site location headers (set, anyRequired)) fun done =>
      P set → P done.1 := by
  induction headers generalizing set anyRequired with
  | nil => exact givesWithin_pure id
  | cons header rest ih =>
    obtain ⟨name, header⟩ := header
    rw [headerMembers]
    refine givesWithin_bind_liftExcept fun required _ => ?_
    simp only
    -- The header is a reference object, or it brings what its schema brings.
    split
    · exact ih.mono fun done hdone hset =>
        hdone (rules.push (rules.announce _ hset) (hown name) fun _ => isPath_declarationPath _ _)
    · refine givesWithin_bind rules.givesWithin_headerTyping fun typing => ?_
      rw [pure_bind]
      exact ih.mono fun done hdone htyping hset =>
        hdone (rules.absorb_push hset htyping (hown name) htyping.1.unionType)

theorem givesWithin_responseBody (rules : DeclarationRules final own named P)
    (hown : OwnsResponse own site) :
    GivesWithin final (walk.responseBody site location value set) fun done => P set → P done := by
  unfold responseBody
  split
  · refine givesWithin_bind rules.givesWithin_contentTyping fun typing => ?_
    exact givesWithin_pure fun htyping hset =>
      rules.absorb_push hset htyping hown.body htyping.1.unionType
  · exact givesWithin_pure id
  · refine givesWithin_pure fun hset => rules.push hset hown.body fun _ => ?_
    exact TypeExpr.normal_object_iff.2 ⟨List.forall_mem_nil _, by simp⟩

theorem givesWithin_responseHeaders (rules : DeclarationRules final own named P)
    (hown : OwnsResponse own site) :
    GivesWithin final (walk.responseHeaders site location value set) fun done => P set → P done := by
  unfold responseHeaders
  split
  · refine givesWithin_bind (rules.givesWithin_headerMembers hown.header) fun done => ?_
    exact givesWithin_pure fun hdone hset => rules.push (hdone hset) hown.headers fun _ => trivial
  · exact givesWithin_pure id

theorem givesWithin_responseDeclaration (rules : DeclarationRules final own named P)
    (hown : OwnsResponse own site) :
    GivesWithin final (walk.responseDeclaration site location value) P := by
  unfold responseDeclaration
  split
  · exact givesWithin_pure (rules.redirectDeclaration _ hown.declared)
  · refine givesWithin_bind (rules.givesWithin_responseBody hown) fun set => ?_
    exact (rules.givesWithin_responseHeaders hown).mono fun done hdone hset =>
      hdone (hset (rules.push rules.empty hown.declared fun _ => trivial))

/-! ### Input and output of an operation -/

/-- The target of the redirect is a path, on the way of a reference as on that of a declaration. -/
theorem givesWithin_declareOrRedirect (rules : DeclarationRules final own named P)
    (hsite : named → IsPath site.path) {declaration : Run FragmentSet}
    (h : GivesWithin final declaration P) :
    GivesWithin final (walk.declareOrRedirect set site value declaration) fun done =>
      (named → IsPath done.2.target) ∧ (P set → P done.1) := by
  unfold declareOrRedirect
  split
  · exact givesWithin_pure ⟨fun _ => isPath_declarationPath _ _, fun hset => rules.announce _ hset⟩
  · exact givesWithin_bind h fun declared => givesWithin_pure fun hdeclared =>
      ⟨hsite, fun hset => rules.extend hset hdeclared⟩

theorem givesWithin_parameterMembers (rules : DeclarationRules final own named P)
    (hbelow : OwnsBelow own) (hoperation : own operation.reference)
    (hpath : named → IsPath operation.path) {parameters : List Located} {taken : List String} :
    GivesWithin final (walk.parameterMembers operation parameters taken set) fun done =>
      P set → P done := by
  induction parameters generalizing taken set with
  | nil => exact givesWithin_pure fun hset => hset
  | cons parameter rest ih =>
    rw [parameterMembers]
    refine givesWithin_bind_liftExcept fun resolved _ => ?_
    refine givesWithin_bind (rules.givesWithin_declareOrRedirect
      (fun hnamed => Naming.isPath_append (Naming.isPath_append (hpath hnamed) (by decide))
        (Naming.identifier_identifier _))
      (rules.givesWithin_parameterDeclaration (hbelow _ _ (hbelow _ _ hoperation)))) fun done => ?_
    exact ih.mono fun _ hrest hdone hset =>
      hrest (rules.push (hdone.2 hset) (hbelow _ _ (hbelow _ _ hoperation)) hdone.1)

theorem givesWithin_bodyMember (rules : DeclarationRules final own named P) (hbelow : OwnsBelow own)
    (hoperation : own operation.reference) (hpath : named → IsPath operation.path)
    {body : Option Json} :
    GivesWithin final (walk.bodyMember operation location set body) fun done => P set → P done := by
  cases body with
  | none => exact givesWithin_pure fun hset => hset
  | some value =>
    refine givesWithin_bind_liftExcept fun required _ => ?_
    refine givesWithin_bind (rules.givesWithin_declareOrRedirect
      (fun hnamed => Naming.isPath_append (hpath hnamed) (by decide))
      (rules.givesWithin_requestBodyDeclaration (hbelow _ _ hoperation))) fun done => ?_
    exact givesWithin_pure fun hdone hset =>
      rules.push (hdone.2 hset) (hbelow _ _ (hbelow _ _ hoperation)) hdone.1

/-- The input is gathered at the operation, with its members below. -/
theorem givesWithin_operationInput (rules : DeclarationRules final own named P)
    (hbelow : OwnsBelow own) (hoperation : own operation.reference)
    (hpath : named → IsPath operation.path) {facts : OperationFacts} {shared : List Located} :
    GivesWithin final (walk.operationInput operation location facts shared) P := by
  unfold operationInput
  refine givesWithin_bind (rules.givesWithin_parameterMembers hbelow hoperation hpath) fun set => ?_
  exact (rules.givesWithin_bodyMember hbelow hoperation hpath).mono fun done hdone hset =>
    hdone (hset (rules.push rules.empty (hbelow _ _ hoperation) fun _ => trivial))

/-- The type of a status is a literal or any number. -/
theorem normal_statusType (status : String) : (statusType status).Normal := by
  unfold statusType
  split
  · exact TypeExpr.normal_literal _
  · exact TypeExpr.normal_number

theorem givesWithin_statusDeclaration (rules : DeclarationRules final own named P)
    (hbelow : OwnsBelow own) {status : String} (hsite : own site.reference) :
    GivesWithin final (walk.statusDeclaration site location status value set) fun done =>
      P set → P done := by
  unfold statusDeclaration
  split
  · refine givesWithin_pure fun hset => rules.push (rules.announce _ hset) hsite fun _ => ?_
    refine TypeExpr.normal_intersectionOf
      (List.forall_mem_cons.2 ⟨?_, List.forall_mem_singleton.2 ?_⟩)
    · exact TypeExpr.normal_object_iff.2
        ⟨List.forall_mem_singleton.2 (normal_statusType status), by simp⟩
    · exact TypeExpr.normal_reference_iff.2 (isPath_declarationPath _ _)
  · refine givesWithin_bind (rules.givesWithin_responseDeclaration (hbelow.ownsResponse hsite))
      fun declared => ?_
    exact givesWithin_pure fun hdeclared hset =>
      rules.push (rules.extend hset hdeclared) (hbelow _ _ hsite) fun _ => normal_statusType status

theorem givesWithin_responseDeclarations (rules : DeclarationRules final own named P)
    (hbelow : OwnsBelow own) (hoperation : own operation.reference)
    (hpath : named → IsPath operation.path) {operationId : String}
    {responses : List (String × Json)} {outputs : List TypeExpr} :
    GivesWithin final
      (walk.responseDeclarations operation location operationId responses set outputs) fun done =>
        (P set → P done.1) ∧
          (named → (∀ type ∈ outputs, type.Normal) → ∀ type ∈ done.2, type.Normal) := by
  induction responses generalizing set outputs with
  | nil => exact givesWithin_pure ⟨fun hset => hset, fun _ houtputs => houtputs⟩
  | cons response rest ih =>
    rw [responseDeclarations]
    split
    · refine givesWithin_bind (rules.givesWithin_statusDeclaration hbelow
        (hbelow _ _ (hbelow _ _ hoperation))) fun set => ?_
      refine ih.mono fun _ hrest hdone => ⟨fun hset => hrest.1 (hdone hset), fun hnamed houtputs => ?_⟩
      -- The new output is a reference to the path of the response.
      refine hrest.2 hnamed (List.forall_mem_append.2 ⟨houtputs, List.forall_mem_singleton.2 ?_⟩)
      exact TypeExpr.normal_reference_iff.2 (Naming.isPath_append
        (Naming.isPath_append (hpath hnamed) (by decide)) (Naming.identifier_identifier _))
    · exact ih.mono fun _ hrest => ⟨fun hset => hrest.1 (rules.filtered _ _ hset), hrest.2⟩

/-- The output is a union of the declared responses, which is normal as references are. -/
theorem givesWithin_operationOutput (rules : DeclarationRules final own named P)
    (hbelow : OwnsBelow own) (hoperation : own operation.reference)
    (hpath : named → IsPath operation.path) {operationId : String} {facts : OperationFacts} :
    GivesWithin final (walk.operationOutput operation location operationId facts) P := by
  unfold operationOutput
  refine givesWithin_bind (rules.givesWithin_responseDeclarations hbelow hoperation hpath)
    fun done => ?_
  refine givesWithin_pure fun hdone =>
    rules.push (hdone.1 rules.empty) (hbelow _ _ hoperation) fun hnamed => ?_
  exact TypeExpr.normal_unionOf (hdone.2 hnamed (List.forall_mem_nil _))

/-! ### Schema documents -/

/-- A schema document starts from the statement of its root. -/
theorem givesWithin_rootFragments (rules : DeclarationRules final own named P)
    (hroot : own Pointer.root) (hschemas : P (declaredSchemas walk.document .schema)) :
    GivesWithin final walk.rootFragments P := by
  unfold rootFragments
  refine givesWithin_bind (rules.givesWithin_schema walk.document _) fun typing =>
    givesWithin_pure fun htyping => ?_
  have hstatement : P ((({} : FragmentSet).extend typing.emitted).push
      (.statement Pointer.root walk.space (TypeExpr.unionOf typing.types))) :=
    rules.absorb_push rules.empty htyping hroot htyping.1.unionType
  split
  · exact rules.extend hstatement hschemas
  · exact hstatement

end DeclarationRules

end Typewright.Api
