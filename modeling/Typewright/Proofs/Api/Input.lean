import Typewright.Proofs.Api.Orderly
import Typewright.Proofs.Api.Owned

/-!
# The members of an operation's input

The input of an operation has one member for each of its parameters and one for its request body
(`operationInput_members`).  A member gets another name than its parameter only where that name is taken
(`Walk.Named.field_eq`).  On the way to the input, the members stand in order beside the declarations of
the parameters and of the body, under references of their own (`Gathers`), so none of them is lost.
-/

namespace Typewright.Api

/-! ### Names of members -/

/-- The name of a new member is the wished one or, if that is taken, the first numbered name with the
    place that is not; the search for it ends. -/
theorem exists_uniqueField_eq (taken : List String) (field place : String) :
    ∃ n ≤ taken.length, Naming.numbered (field ++ Naming.identifier place) n ∉ taken ∧
      (∀ m < n, Naming.numbered (field ++ Naming.identifier place) m ∈ taken) ∧
      uniqueField taken field place =
        if field ∈ taken then Naming.numbered (field ++ Naming.identifier place) n else field := by
  obtain ⟨n, hn, hfresh, hnew, hbefore⟩ :=
    Naming.exists_fresh_first taken (field ++ Naming.identifier place)
  refine ⟨n, hn, hnew, hbefore, ?_⟩
  simp only [uniqueField, List.contains_iff_mem, hfresh]

/-- The search for a name ends at one that is not taken. -/
theorem uniqueField_notMem (taken : List String) (field place : String) :
    uniqueField taken field place ∉ taken := by
  obtain ⟨n, -, hnew, -, heq⟩ := exists_uniqueField_eq taken field place
  rw [heq]
  split
  · exact hnew
  · assumption

/-- A name that is not taken is kept as it is. -/
theorem uniqueField_of_notMem {taken : List String} {field : String} (h : field ∉ taken)
    (place : String) : uniqueField taken field place = field := by
  obtain ⟨n, -, -, -, heq⟩ := exists_uniqueField_eq taken field place
  rw [heq, if_neg h]

/-- A parameter of an operation, with the value it leads to and the name of its member. -/
structure InputParameter where
  parameter : Located
  resolved : Json
  field : String

namespace InputParameter

/-- What tells the parameter apart from others. -/
def key (parameter : InputParameter) : ParameterKey :=
  .ofJson parameter.resolved

/-- The parameter is written out, and no reference object. -/
def Inline (parameter : InputParameter) : Prop :=
  Pointer.target? parameter.parameter.value = none

end InputParameter

namespace Walk

/-- A parameter that leads to a value, with the name that its member gets where these names are taken. -/
def nameParameter (walk : Walk) (taken : List String) (parameter : Located) (resolved : Json) :
    InputParameter where
  parameter
  resolved
  field :=
    uniqueField taken (walk.fieldOf (ParameterKey.ofJson resolved).name)
      (ParameterKey.ofJson resolved).place

/-- The parameters with the values they lead to, and with names that are given one after the other;
    `taken` are the names given before. -/
inductive Named (walk : Walk) : List String → List Located → List InputParameter → Prop where
  | nil (taken : List String) : Named walk taken [] []
  | cons {taken : List String} {parameter : Located} {resolved : Json} {rest : List Located}
      {others : List InputParameter}
      (leads : Pointer.follow walk.document parameter.value = .ok resolved)
      (next : Named walk ((walk.nameParameter taken parameter resolved).field :: taken) rest others) :
      Named walk taken (parameter :: rest) (walk.nameParameter taken parameter resolved :: others)

namespace Named

variable {walk : Walk} {taken : List String} {parameters : List Located} {named : List InputParameter}

/-- Every parameter is named once, in the order of the list. -/
theorem map_parameter (h : walk.Named taken parameters named) :
    named.map (·.parameter) = parameters := by
  induction h with
  | nil => rfl
  | cons _ _ ih =>
    rw [List.map_cons, ih]
    rfl

/-- A parameter is named by what it leads to. -/
theorem resolved_of_mem (h : walk.Named taken parameters named) :
    ∀ parameter ∈ named,
      Pointer.follow walk.document parameter.parameter.value = .ok parameter.resolved := by
  induction h with
  | nil => exact fun _ hmem => absurd hmem List.not_mem_nil
  | cons hleads _ ih => exact List.forall_mem_cons.2 ⟨hleads, ih⟩

/-- A name depends on the names that were given before, and only on these. -/
theorem field_eq (h : walk.Named taken parameters named) {before after : List InputParameter}
    {parameter : InputParameter} (hnamed : named = before ++ parameter :: after) :
    parameter.field = uniqueField ((before.map (·.field)).reverse ++ taken)
      (walk.fieldOf parameter.key.name) parameter.key.place := by
  induction h generalizing before with
  | nil => exact absurd hnamed.symm (by simp)
  | cons _ _ ih =>
    cases before with
    | nil =>
      obtain ⟨rfl, -⟩ := List.cons.inj hnamed
      rfl
    | cons first before =>
      obtain ⟨rfl, hothers⟩ := List.cons.inj hnamed
      rw [ih hothers, List.map_cons, List.reverse_cons, List.append_assoc, List.singleton_append]

/-- No parameter gets a name that was taken before. -/
theorem notMem_of_mem (h : walk.Named taken parameters named) :
    ∀ parameter ∈ named, parameter.field ∉ taken := by
  induction h with
  | nil => exact fun _ hmem => absurd hmem List.not_mem_nil
  | cons _ _ ih =>
    refine List.forall_mem_cons.2 ⟨?_, ?_⟩
    · exact uniqueField_notMem _ _ _
    · exact fun other hother hmem => ih other hother (List.mem_cons_of_mem _ hmem)

/-- No two parameters get the same name. -/
theorem nodup_fields (h : walk.Named taken parameters named) : (named.map (·.field)).Nodup := by
  induction h with
  | nil => exact List.nodup_nil
  | cons _ hnext ih =>
    refine List.nodup_cons.2 ⟨fun hmem => ?_, ih⟩
    obtain ⟨other, hother, heq⟩ := List.mem_map.1 hmem
    exact hnext.notMem_of_mem other hother (heq ▸ List.mem_cons_self)

end Named

end Walk

/-! ### Members and declarations by their references -/

namespace Site

/-- Where the member of that name stands. -/
def field (operation : Site) (name : String) : Site :=
  (operation.child "input" "Input").child name name

/-- The sites at which a value is declared: the site itself, unless the value is a reference object. -/
def declaring (site : Site) (value : Json) : List Site :=
  match Pointer.target? value with
  | some _ => []
  | none => [site]

/-- Only a value that is no reference object is declared at its site. -/
theorem mem_declaring_iff {site other : Site} {value : Json} :
    other ∈ site.declaring value ↔ Pointer.target? value = none ∧ other = site := by
  unfold declaring
  split
  · next htarget => simp [htarget]
  · next htarget => simp [htarget]

/-- The reference of the site is that of an operation, or stands where those of operations do. -/
def UnderOperations (site : Site) : Prop :=
  ∃ rest, Pointer.split site.reference = "operations" :: rest

/-- The reference of the site stands under the segment in that of the operation. -/
def Under (operation : Site) (segment : String) (site : Site) : Prop :=
  ∃ rest, Pointer.split site.reference = Pointer.split operation.reference ++ segment :: rest

section Under

variable {operation site other : Site} {segment segment' : String}

/-- What lies under one segment of an operation has none of the references under another. -/
theorem Under.reference_ne (h : operation.Under segment site) (hother : operation.Under segment' other)
    (hne : segment ≠ segment') : site.reference ≠ other.reference := by
  intro href
  obtain ⟨rest, hrest⟩ := h
  obtain ⟨rest', hrest'⟩ := hother
  rw [href, hrest'] at hrest
  exact hne (List.cons.inj (List.append_cancel_left hrest)).1.symm

/-- Nothing under an operation has the reference of an enum. -/
theorem Under.ne_enum {fragment : Fragment} {final : EnumNames} (h : operation.Under segment site)
    (hoperation : operation.UnderOperations) (henum : fragment.IsEnum final) :
    site.reference ≠ fragment.reference := by
  intro href
  obtain ⟨rest, hrest⟩ := h
  obtain ⟨rest', hrest'⟩ := hoperation
  obtain ⟨name, hname⟩ := henum.split_eq
  rw [href, hname, hrest', List.cons_append] at hrest
  exact absurd (List.cons.inj hrest).1 (by decide)

variable (operation)

theorem under_child (name : String) (h : segment ≠ "") :
    operation.Under segment (operation.child segment name) :=
  ⟨[], Pointer.split_child operation.reference h⟩

theorem split_child_child (name inner other : String) (h : segment ≠ "") :
    Pointer.split ((operation.child segment name).child inner other).reference =
      Pointer.split operation.reference ++ segment :: [inner].filter (· ≠ "") := by
  change Pointer.split (Pointer.child (Pointer.child operation.reference segment) inner) = _
  rw [Pointer.split_child_eq, Pointer.split_child _ h, List.append_assoc, List.singleton_append]

theorem under_field (name : String) : operation.Under "input" (operation.field name) :=
  ⟨_, operation.split_child_child "Input" name name (by decide)⟩

theorem under_parameter (key : ParameterKey) :
    operation.Under "parameters" (operation.parameter key) :=
  ⟨_, operation.split_child_child "Parameters" _ _ (by decide)⟩

theorem under_requestBody : operation.Under "requestBody" operation.requestBody :=
  operation.under_child "Body" (by decide)

/-- Different fields of an input have different references. -/
theorem field_reference_injective : Function.Injective fun name => (operation.field name).reference := by
  intro a b h
  have hsplit := congrArg Pointer.split h
  simp only [field, split_child_child operation "Input" _ _ (by decide : "input" ≠ "")] at hsplit
  exact Pointer.eq_of_filter_eq (List.cons.inj (List.append_cancel_left hsplit)).2

end Under

theorem underOperations_operationSite (walk : Walk) (id : String) :
    (walk.operationSite id).UnderOperations :=
  ⟨[id].filter (· ≠ ""), Pointer.split_join_eq ["operations", id]⟩

end Site

/-! ### Members -/

/-- A member of the input of an operation. -/
structure InputMember where
  name : String
  optional : Bool
  redirect : Redirect

/-- The fragment of a member. -/
def InputMember.fragment (operation : Site) (member : InputMember) : Fragment :=
  (operation.field member.name).declareMember member.optional (.redirect member.redirect)

/-- The redirect to the declaration of a value: to that of its reference, or to the site where it is
    declared. -/
def Walk.redirectOf (walk : Walk) (site : Site) (value : Json) : Redirect :=
  match Pointer.target? value with
  | some reference => walk.redirectTo reference
  | none => site.redirect

/-- The member of a parameter. -/
def InputParameter.member (walk : Walk) (operation : Site) (parameter : InputParameter) :
    InputMember where
  name := parameter.field
  optional := !(parameter.resolved.flag "required" || parameter.key.place == "path")
  redirect := walk.redirectOf (operation.parameter parameter.key) parameter.parameter.value

/-- The member of a request body. -/
def InputMember.ofBody (walk : Walk) (operation : Site) (required : Bool) (body : Json) :
    InputMember where
  name := "body"
  optional := !required
  redirect := walk.redirectOf operation.requestBody body

end Typewright.Api

/-! ### What is declared at a site -/

namespace Typewright.FragmentSet

open Api (Site Walk ownedRules)

/-- Something is declared at the site and, besides, enums only. -/
structure DeclaresAt (site : Site) (set : FragmentSet) : Prop where
  declared : set.Declared site.reference
  concrete : ∀ fragment ∈ set.fragments, fragment.isAssumed = false →
    (∃ final, fragment.IsEnum final) ∨ ∃ body, fragment = site.declare body

variable {site : Site} {walk : Walk} {location : String} {value : Json}

/-- A declaration brings no members along. -/
theorem DeclaresAt.kind_ne_member {set : FragmentSet} (h : set.DeclaresAt site) {fragment : Fragment}
    (hfragment : fragment ∈ set.fragments) : fragment.kind ≠ .member := by
  intro hkind
  have hconcrete : fragment.isAssumed = false := by
    cases fragment with
    | assumed reference => exact absurd hkind (by simp [Fragment.kind])
    | _ => rfl
  have hdeclaration : fragment.kind = .declaration := by
    rcases h.concrete fragment hfragment hconcrete with ⟨final, wish, n, values, -, rfl⟩ | ⟨body, rfl⟩
    · rfl
    · rfl
  exact absurd (hdeclaration.symm.trans hkind) (by decide)

/-- A declared type brings its own declaration and the enums of the typing. -/
theorem declaresAt_typeDeclaration {typing : Typing} (h : ∃ final, typing.BringsEnums final) :
    (Api.Walk.typeDeclaration site typing).DeclaresAt site := by
  obtain ⟨final, howned⟩ := h
  refine ⟨declared_push_self rfl, fun fragment hfragment hconcrete => ?_⟩
  rcases mem_push hfragment with hfragment | rfl
  · have hmem := (mem_extend hfragment).resolve_left List.not_mem_nil
    exact .inl ⟨final, (howned.concrete fragment hmem hconcrete).resolve_left id⟩
  · exact .inr ⟨_, rfl⟩

/-- A parameter that is no reference object is declared by the type of its schema. -/
theorem gives_parameterDeclaration (h : Pointer.target? value = none) :
    (walk.parameterDeclaration site location value).Gives (DeclaresAt site) := by
  have htyping : (walk.parameterTyping location site.name value).Gives fun typing =>
      ∃ final, typing.BringsEnums final :=
    Run.gives_of_givesWithin fun final =>
      (ownedRules final fun _ => False).givesWithin_parameterTyping.mono fun _ h => ⟨final, h.2⟩
  rw [Walk.parameterDeclaration, h]
  exact Run.gives_map htyping fun _ => declaresAt_typeDeclaration

/-- A body that is no reference object is declared by the type of its content. -/
theorem gives_requestBodyDeclaration (h : Pointer.target? value = none) :
    (walk.requestBodyDeclaration site location value).Gives (DeclaresAt site) := by
  have htyping (content : List (String × Json)) (location : String) :
      (walk.contentTyping location site.name content).Gives fun typing =>
        ∃ final, typing.BringsEnums final :=
    Run.gives_of_givesWithin fun final =>
      (ownedRules final fun _ => False).givesWithin_contentTyping.mono fun _ h => ⟨final, h.2⟩
  rw [Walk.requestBodyDeclaration, h]
  simp only
  split
  · exact Run.gives_bind (htyping _ _) fun _ h => Run.gives_pure (declaresAt_typeDeclaration h)
  · exact Run.gives_pure (declaresAt_typeDeclaration ⟨[], owned_empty⟩)

end Typewright.FragmentSet

namespace Typewright.Api

/-! ### What the input gathers -/

/-- A set on the way to the input of an operation: the members so far, in order, and the sites at which
    something is declared, with nothing else that is concrete but the input itself and enums. -/
structure Gathers (operation : Site) (sites : List Site) (members : List InputMember)
    (set : FragmentSet) : Prop where
  nodup : (set.fragments.map Fragment.reference).Nodup
  members : Fragment.ofKind .member set.fragments = members.map (·.fragment operation)
  declared : ∀ site ∈ sites, set.Declared site.reference
  concrete : ∀ fragment ∈ set.fragments, fragment.isAssumed = false → fragment.isMember = false →
    fragment = (operation.child "input" "Input").declare .gathered ∨
      (∃ final, fragment.IsEnum final) ∨ ∃ site ∈ sites, ∃ body, fragment = site.declare body

namespace Gathers

variable {walk : Walk} {operation site : Site} {sites : List Site} {members : List InputMember}
  {set : FragmentSet}

theorem member_ne_assumed : Fragment.Kind.member ≠ .assumed := by decide

theorem start (operation : Site) :
    Gathers operation [] []
      (({} : FragmentSet).push ((operation.child "input" "Input").declare .gathered)) where
  nodup := List.nodup_singleton _
  members := rfl
  declared _ h := absurd h List.not_mem_nil
  concrete _ hfragment _ _ :=
    .inl ((FragmentSet.mem_push hfragment).resolve_left List.not_mem_nil)

theorem announce (h : Gathers operation sites members set) (reference : String) :
    Gathers operation sites members (set.push (.assumed reference)) where
  nodup := FragmentSet.nodup_push h.nodup _
  members := by
    refine (FragmentSet.ofKind_push member_ne_assumed fun hconcrete => ?_).trans ?_
    · exact absurd hconcrete (by simp [Fragment.isAssumed])
    · rw [h.members]
      exact List.append_nil _
  declared site hsite := (h.declared site hsite).push _
  concrete fragment hfragment hconcrete := by
    rcases FragmentSet.mem_push hfragment with hfragment | rfl
    · exact h.concrete fragment hfragment hconcrete
    · exact absurd hconcrete (by simp [Fragment.isAssumed])

/-- A declaration at a site that stands elsewhere than the members leaves these alone. -/
theorem extend (h : Gathers operation sites members set) (hoperation : operation.UnderOperations)
    {segment : String} (hsite : operation.Under segment site) (hsegment : segment ≠ "input")
    {declared : FragmentSet} (hdeclared : declared.DeclaresAt site) :
    Gathers operation (sites ++ [site]) members (set.extend declared) := by
  refine ⟨FragmentSet.nodup_extend h.nodup _, ?_, ?_, ?_⟩
  · refine (Fragment.ofKind_combine member_ne_assumed (fun _ => hdeclared.kind_ne_member)
      fun fragment hfragment hconcrete other hother => ?_).trans h.members
    rw [h.members] at hother
    obtain ⟨member, -, rfl⟩ := List.mem_map.1 hother
    have hmember := operation.under_field member.name
    -- Neither an enum nor the declaration at the site has the reference of a member.
    rcases hdeclared.concrete fragment hfragment hconcrete with ⟨final, henum⟩ | ⟨body, rfl⟩
    · exact hmember.ne_enum hoperation henum
    · exact hmember.reference_ne hsite hsegment.symm
  · refine List.forall_mem_append.2 ⟨fun other hother => (h.declared other hother).extend _, ?_⟩
    intro other hother
    rw [List.mem_singleton.1 hother]
    exact FragmentSet.declared_extend hdeclared.declared
  · intro fragment hfragment hconcrete hmember
    rcases FragmentSet.mem_extend hfragment with hfragment | hfragment
    · refine (h.concrete fragment hfragment hconcrete hmember).imp_right (Or.imp_right ?_)
      exact fun ⟨other, hother, hbody⟩ => ⟨other, List.mem_append_left _ hother, hbody⟩
    · refine .inr ((hdeclared.concrete fragment hfragment hconcrete).imp_right ?_)
      exact fun hbody => ⟨site, List.mem_append_right _ (List.mem_singleton_self _), hbody⟩

/-- A member of a new name comes last. -/
theorem push (h : Gathers operation sites members set) {member : InputMember}
    (hnew : ∀ other ∈ members, other.name ≠ member.name) :
    Gathers operation sites (members ++ [member]) (set.push (member.fragment operation)) where
  nodup := FragmentSet.nodup_push h.nodup _
  members := by
    refine (FragmentSet.ofKind_push member_ne_assumed fun _ other hother => ?_).trans ?_
    · rw [h.members] at hother
      obtain ⟨member, hmember, rfl⟩ := List.mem_map.1 hother
      exact fun href => hnew member hmember (operation.field_reference_injective href)
    · rw [h.members, List.map_append]
      rfl
  declared site hsite := (h.declared site hsite).push _
  concrete fragment hfragment hconcrete hmember := by
    rcases FragmentSet.mem_push hfragment with hfragment | rfl
    · exact h.concrete fragment hfragment hconcrete hmember
    · exact absurd hmember (by simp [InputMember.fragment, Site.declareMember, Fragment.isMember])

/-- A value is declared at its site unless it is a reference object, which is announced. -/
theorem gives_declareOrRedirect (h : Gathers operation sites members set)
    (hoperation : operation.UnderOperations) {segment : String} (hsite : operation.Under segment site)
    (hsegment : segment ≠ "input") {value : Json} {declaration : Run FragmentSet}
    (hdeclaration : Pointer.target? value = none → declaration.Gives (FragmentSet.DeclaresAt site)) :
    (walk.declareOrRedirect set site value declaration).Gives fun done =>
      Gathers operation (sites ++ site.declaring value) members done.1 ∧
        done.2 = walk.redirectOf site value := by
  unfold Walk.declareOrRedirect Site.declaring Walk.redirectOf
  cases htarget : Pointer.target? value with
  | some reference =>
    refine Run.gives_pure ⟨?_, rfl⟩
    rw [List.append_nil]
    exact h.announce reference
  | none =>
    refine Run.gives_bind (hdeclaration htarget) fun declared hdeclared => ?_
    exact Run.gives_pure ⟨h.extend hoperation hsite hsegment hdeclared, rfl⟩

/-- The parameters are named one after the other, and each of them is declared, unless it is a reference
    object, and gives a member. -/
theorem gives_parameterMembers (hoperation : operation.UnderOperations) {parameters : List Located}
    {taken : List String} (h : Gathers operation sites members set)
    (htaken : ∀ member ∈ members, member.name ∈ taken) :
    (walk.parameterMembers operation parameters taken set).Gives fun done =>
      ∃ named, walk.Named taken parameters named ∧
        Gathers operation
          (sites ++ named.flatMap fun parameter =>
            (operation.parameter parameter.key).declaring parameter.parameter.value)
          (members ++ named.map (·.member walk operation)) done := by
  induction parameters generalizing sites members taken set with
  | nil =>
    refine Run.gives_pure ⟨[], .nil taken, ?_⟩
    rwa [List.flatMap_nil, List.map_nil, List.append_nil, List.append_nil]
  | cons parameter rest ih =>
    rw [Walk.parameterMembers]
    refine Run.gives_bind (Run.gives_liftExcept fun _ hresolved => hresolved) fun resolved hresolved => ?_
    refine Run.gives_bind (h.gives_declareOrRedirect hoperation (operation.under_parameter _)
      (by decide) FragmentSet.gives_parameterDeclaration) fun done hdone => ?_
    obtain ⟨set', redirect⟩ := done
    obtain ⟨hgathers, rfl⟩ := hdone
    -- The search for a name ended at one that is not taken, so no member has it.
    have hnew : ∀ other ∈ members, other.name ≠
        ((walk.nameParameter taken parameter resolved).member walk operation).name := by
      intro other hother heq
      exact uniqueField_notMem _ _ _ (heq ▸ htaken other hother)
    refine (ih (hgathers.push hnew) ?_).mono fun last hlast => ?_
    · refine List.forall_mem_append.2 ⟨fun other hother => ?_, fun other hother => ?_⟩
      · exact List.mem_cons_of_mem _ (htaken other hother)
      · rw [List.mem_singleton.1 hother]
        exact List.mem_cons_self
    · obtain ⟨named, hnamed, hlast⟩ := hlast
      refine ⟨walk.nameParameter taken parameter resolved :: named, .cons hresolved hnamed, ?_⟩
      rwa [List.flatMap_cons, List.map_cons, ← List.append_assoc, List.append_cons members]

/-- A request body is declared, unless it is a reference object, and gives one member more. -/
theorem gives_bodyMember (h : Gathers operation sites members set)
    (hoperation : operation.UnderOperations) {location : String} {body : Option Json}
    (hnew : body.isSome = true → ∀ member ∈ members, member.name ≠ "body") :
    (walk.bodyMember operation location set body).Gives fun done =>
      ∃ required, Gathers operation
        (sites ++ body.toList.flatMap operation.requestBody.declaring)
        (members ++ body.toList.map (.ofBody walk operation required)) done := by
  cases body with
  | none =>
    refine Run.gives_pure ⟨false, ?_⟩
    rwa [Option.toList_none, List.flatMap_nil, List.map_nil, List.append_nil, List.append_nil]
  | some value =>
    rw [Walk.bodyMember]
    refine Run.gives_bind (Run.gives_liftExcept fun _ _ => trivial) fun required _ => ?_
    refine Run.gives_bind (h.gives_declareOrRedirect hoperation operation.under_requestBody
      (by decide) FragmentSet.gives_requestBodyDeclaration) fun done hdone => ?_
    obtain ⟨set', redirect⟩ := done
    obtain ⟨hgathers, rfl⟩ := hdone
    -- The name of the body was reserved before the parameters were named.
    have hbody : ∀ other ∈ members,
        other.name ≠ (InputMember.ofBody walk operation required value).name :=
      hnew rfl
    have hpush := hgathers.push hbody
    refine Run.gives_pure ⟨required, ?_⟩
    rwa [Option.toList_some, List.flatMap_singleton, List.map_singleton]

end Gathers

namespace Walk

variable {walk : Walk} {operation : Site} {location : String} {facts : OperationFacts}
  {shared : List Located}

/-- The names that no parameter gets as its member's name. -/
def reservedNames (facts : OperationFacts) : List String :=
  if facts.requestBody.isSome then ["body"] else []

/-- The members of an input: one for each of the parameters, then one for the request body. -/
def inputMembers (walk : Walk) (operation : Site) (facts : OperationFacts)
    (named : List InputParameter) (required : Bool) : List InputMember :=
  named.map (·.member walk operation) ++ facts.requestBody.toList.map (.ofBody walk operation required)

/-- The sites at which the parameters and the request body are declared. -/
def inputSites (operation : Site) (facts : OperationFacts) (named : List InputParameter) : List Site :=
  (named.flatMap fun parameter =>
      (operation.parameter parameter.key).declaring parameter.parameter.value)
    ++ facts.requestBody.toList.flatMap operation.requestBody.declaring

/-- A shared parameter counts unless an own one has its key. -/
theorem effectiveParameters_eq (walk : Walk) (location : String) (shared : List Located)
    (own : List Json) :
    walk.effectiveParameters shared (Located.items location own) =
      shared.filter (fun parameter => ∀ value ∈ own, walk.keyOf value ≠ walk.keyOf parameter.value)
        ++ Located.items location own := by
  have hkeys : (Located.items location own).map (walk.keyOf ·.value) = own.map walk.keyOf := by
    have hvalues := congrArg (List.map walk.keyOf) (Register.map_value_items location own)
    rwa [List.map_map] at hvalues
  rw [effectiveParameters, hkeys]
  congr 1
  refine List.filter_congr fun parameter _ => ?_
  rw [Bool.eq_iff_iff]
  simp

/-- The input holds a member for each parameter and one for the body, and what is declared stands at
    their sites. -/
theorem gives_operationInput (hoperation : operation.UnderOperations) :
    (walk.operationInput operation location facts shared).Gives fun set =>
      ∃ named required,
        walk.Named (reservedNames facts) (walk.effectiveParameters shared
          (Located.items (Pointer.child location "parameters") facts.parameters)) named ∧
        Gathers operation (inputSites operation facts named)
          (walk.inputMembers operation facts named required) set := by
  unfold operationInput
  refine Run.gives_bind ((Gathers.start operation).gives_parameterMembers hoperation
    fun _ h => absurd h List.not_mem_nil) fun set hset => ?_
  obtain ⟨named, hnamed, hgathers⟩ := hset
  refine (hgathers.gives_bodyMember hoperation fun hbody member hmember hname => ?_).mono
    fun done ⟨required, hdone⟩ => ⟨named, required, hnamed, hdone⟩
  -- The parameters were named when `body` was reserved.
  obtain ⟨parameter, hparameter, rfl⟩ := List.mem_map.1 hmember
  refine hnamed.notMem_of_mem parameter hparameter ?_
  rw [if_pos hbody]
  exact List.mem_singleton.2 hname

theorem mem_reservedNames_iff {name : String} :
    name ∈ reservedNames facts ↔ facts.requestBody.isSome = true ∧ name = "body" := by
  unfold reservedNames
  split <;> simp_all

/-- The member of the body has the one name that is reserved. -/
theorem map_name_ofBody (walk : Walk) (operation : Site) (facts : OperationFacts) (required : Bool) :
    (facts.requestBody.toList.map (InputMember.ofBody walk operation required)).map (·.name) =
      reservedNames facts := by
  unfold reservedNames
  cases facts.requestBody <;> rfl

/-- Parameters are named around what is reserved, so no member has the name of another. -/
theorem nodup_inputMembers {named : List InputParameter} {parameters : List Located} {required : Bool}
    (h : walk.Named (reservedNames facts) parameters named) :
    ((walk.inputMembers operation facts named required).map (·.name)).Nodup := by
  have hreserved : (reservedNames facts).Nodup := by
    unfold reservedNames
    split <;> simp
  rw [inputMembers, List.map_append, map_name_ofBody, List.map_map, List.nodup_append]
  refine ⟨h.nodup_fields, hreserved, fun name hname other hother heq => ?_⟩
  obtain ⟨parameter, hparameter, rfl⟩ := List.mem_map.1 hname
  rw [← heq] at hother
  exact h.notMem_of_mem parameter hparameter hother

end Walk

/-! ### The members of an input -/

open Walk in
/-- A search for a name ends.  The input of an operation has one member for each effective parameter,
    the shared ones whose key no own parameter has and then the own ones, and last one for the request
    body.  The names of the members differ; a member is optional unless its parameter is required or
    stands in the path; and a parameter's member has the plain name unless that is taken. -/
theorem operationInput_members (walk : Walk) (id location : String) (facts : OperationFacts)
    (shared : List Located) :
    (∀ taken field place, ∃ n ≤ taken.length,
      Naming.numbered (field ++ Naming.identifier place) n ∉ taken ∧
        (∀ m < n, Naming.numbered (field ++ Naming.identifier place) m ∈ taken) ∧
        uniqueField taken field place =
          if field ∈ taken then Naming.numbered (field ++ Naming.identifier place) n else field) ∧
    ∀ names set names',
      (walk.operationInput (walk.operationSite id) location facts shared).Yields names set names' →
      ∃ (named : List InputParameter) (required : Bool),
        named.map (·.parameter) =
          shared.filter (fun parameter =>
              ∀ own ∈ facts.parameters, walk.keyOf own ≠ walk.keyOf parameter.value)
            ++ Located.items (Pointer.child location "parameters") facts.parameters ∧
        (∀ parameter ∈ named,
          Pointer.follow walk.document parameter.parameter.value = .ok parameter.resolved) ∧
        Fragment.ofKind .member set.fragments =
          (walk.inputMembers (walk.operationSite id) facts named required).map
            (·.fragment (walk.operationSite id)) ∧
        ((walk.inputMembers (walk.operationSite id) facts named required).map (·.name)).Nodup ∧
        (∀ parameter ∈ named, (parameter.member walk (walk.operationSite id)).optional = true ↔
          parameter.resolved.flag "required" ≠ true ∧ parameter.key.place ≠ "path") ∧
        ∀ before parameter after, named = before ++ parameter :: after →
          walk.fieldOf parameter.key.name ∉ before.map (·.field) →
          ¬ (facts.requestBody.isSome = true ∧ walk.fieldOf parameter.key.name = "body") →
          parameter.field = walk.fieldOf parameter.key.name := by
  refine ⟨exists_uniqueField_eq, fun names set names' h => ?_⟩
  obtain ⟨named, required, hnamed, hgathers⟩ :=
    gives_operationInput (Site.underOperations_operationSite walk id) names set names' h
  refine ⟨named, required, ?_, hnamed.resolved_of_mem, hgathers.members,
    nodup_inputMembers hnamed, fun parameter _ => ?_,
    fun before parameter after heq hnew hbody => ?_⟩
  · rw [hnamed.map_parameter, effectiveParameters_eq]
  · simp [InputParameter.member]
  · rw [hnamed.field_eq heq]
    -- A name is taken by an earlier parameter, or reserved for the body.
    refine uniqueField_of_notMem (fun hmem => ?_) _
    rcases List.mem_append.1 hmem with hmem | hmem
    · exact hnew (List.mem_reverse.1 hmem)
    · exact hbody (mem_reservedNames_iff.1 hmem)

/-- A walk through an empty document. -/
def emptyWalk : Walk where
  document := .object []
  context := { options := {}, baseName := "API" }
  space := "API"

/-- A parameter of a name at a place. -/
def plainParameter (name place : String) : Json :=
  .object [("name", .string name), ("in", .string place)]

/-- An operation with a request body and own parameters in the header and in the query. -/
def pagedFacts : OperationFacts where
  parameters := [plainParameter "pageSize" "header", plainParameter "body" "query"]
  requestBody := some (.object [])

/-- The operation's input, where two parameters are shared, one of which is the operation's own. -/
def pagedInput : Run FragmentSet :=
  emptyWalk.operationInput (emptyWalk.operationSite "getPets") "#" pagedFacts
    (Located.items "#/parameters"
      [plainParameter "pageSize" "header", plainParameter "page_size" "query"])

/-- Two members would be called `pageSize` and two `body`; they are told apart by the places of their
    parameters. -/
theorem operationInput_members_paged :
    ∃ set names', pagedInput.Yields [] set names' ∧
      (Fragment.ofKind .member set.fragments).map (·.path.getLast?) =
        [some "pageSize", some "pageSizeHeader", some "bodyQuery", some "body"] ∧
      ∃ named required, Fragment.ofKind .member set.fragments =
        (emptyWalk.inputMembers (emptyWalk.operationSite "getPets") pagedFacts named required).map
          (·.fragment (emptyWalk.operationSite "getPets")) := by
  have hany : (pagedInput.outcome []).1.toOption.any (fun set =>
      (Fragment.ofKind .member set.fragments).map (·.path.getLast?) ==
        [some "pageSize", some "pageSizeHeader", some "bodyQuery", some "body"]) = true := by
    decide +kernel
  obtain ⟨set, names', hset, hnames⟩ := Run.exists_yields_of_any hany
  obtain ⟨named, required, -, -, hmembers, -⟩ :=
    (operationInput_members emptyWalk "getPets" "#" pagedFacts _).2 [] set names' hset
  exact ⟨set, names', hset, eq_of_beq hnames, named, required, hmembers⟩

end Typewright.Api
