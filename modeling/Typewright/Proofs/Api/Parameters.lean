import Typewright.Proofs.Api.Input
import Typewright.Proofs.Text.Distinct

/-!
# Where the parameters of an operation are declared

A parameter that is written out is declared under the identifier of its name.  Parameters of different
keys may share an identifier; then their members redirect to one path, and the namespace of the
parameters declares the name twice.  Where no two of them do, the members have different targets and
no name is declared twice (`operationInput_targets`).
-/

namespace Typewright

namespace Fragment

/-- The name that a fragment declares in a namespace. -/
def nameIn? (space : List String) : Fragment → Option String
  | declaration _ path _ => if path.dropLast = space then path.getLast? else none
  | _ => none

theorem nameIn?_declare_child (space : List String) (site : Api.Site) (segment name : String)
    (body : DeclarationBody) :
    ((site.child segment name).declare body).nameIn? space =
      if site.path = space then some name else none := by
  simp [Api.Site.declare, Api.Site.child, nameIn?]

theorem IsEnum.nameIn?_eq {fragment : Fragment} {final : EnumNames} (h : fragment.IsEnum final)
    (space : List String) :
    fragment.nameIn? space = none ∨ space = [EnumDeclaration.space] := by
  obtain ⟨wish, n, values, -, rfl⟩ := h
  by_cases hspace : space = [EnumDeclaration.space]
  · exact .inr hspace
  · exact .inl (if_neg (Ne.symm hspace))

end Fragment

/-- The target of a member that redirects. -/
def Fragment.target? : Fragment → Option (List String)
  | member _ _ _ (.redirect redirect) => some redirect.target
  | _ => none

/-- The names that are declared in a namespace, in the order of the declarations. -/
def FragmentSet.namesIn (set : FragmentSet) (space : List String) : List String :=
  set.fragments.filterMap (Fragment.nameIn? space)

namespace Api

/-- The namespace in which the parameters of an operation are declared. -/
def Site.parameterSpace (operation : Site) : List String :=
  operation.path ++ ["Parameters"]

theorem nameIn?_parameter (operation : Site) (key : ParameterKey) (body : DeclarationBody) :
    ((operation.parameter key).declare body).nameIn? operation.parameterSpace =
      some (Naming.identifier key.name) :=
  (Fragment.nameIn?_declare_child ..).trans (if_pos rfl)

/-- Parameters that are written out, of different keys, have different identifiers. -/
def IdentifiersDiffer (named : List InputParameter) : Prop :=
  ∀ p ∈ named, ∀ q ∈ named, p.Inline → q.Inline → p.key ≠ q.key →
    Naming.identifier p.key.name ≠ Naming.identifier q.key.name

/-! ### References of parameters -/

theorem ParameterKey.eq_of_segment_eq {key other : ParameterKey} (hkey : '.' ∉ key.place.toList)
    (hother : '.' ∉ other.place.toList)
    (h : key.place ++ "." ++ key.name = other.place ++ "." ++ other.name) : key = other := by
  obtain ⟨name, place⟩ := key
  obtain ⟨name', place'⟩ := other
  have hname : name = name' :=
    (parameterName_eq hkey).symm.trans ((congrArg parameterName h).trans (parameterName_eq hother))
  subst hname
  have hchars : place.toList ++ ("." ++ name).toList = place'.toList ++ ("." ++ name).toList := by
    rw [← String.toList_append, ← String.toList_append, ← String.append_assoc, ← String.append_assoc]
    exact congrArg String.toList h
  rw [String.toList_inj.1 (List.append_cancel_right hchars)]

/-- Where places have no points, the reference of a parameter tells its key. -/
theorem key_eq_of_reference_eq {operation : Site} {key other : ParameterKey}
    (hkey : '.' ∉ key.place.toList) (hother : '.' ∉ other.place.toList)
    (h : (operation.parameter key).reference = (operation.parameter other).reference) : key = other := by
  have hsplit := congrArg Pointer.split h
  rw [Site.parameter, Site.parameter, Site.split_child_child _ _ _ _ (by decide),
    Site.split_child_child _ _ _ _ (by decide)] at hsplit
  have hsegment := Pointer.eq_of_filter_eq (List.cons.inj (List.append_cancel_left hsplit)).2
  exact key.eq_of_segment_eq hkey hother hsegment

/-! ### Names that the parameters declare -/

section Sites

variable {operation site : Site} {facts : OperationFacts} {named : List InputParameter}

theorem parameter_or_body_of_mem_inputSites (h : site ∈ Walk.inputSites operation facts named) :
    (∃ p ∈ named, p.Inline ∧ site = operation.parameter p.key) ∨ site = operation.requestBody := by
  rcases List.mem_append.1 h with h | h
  · obtain ⟨p, hp, hsite⟩ := List.mem_flatMap.1 h
    exact .inl ⟨p, hp, Site.mem_declaring_iff.1 hsite⟩
  · obtain ⟨body, -, hsite⟩ := List.mem_flatMap.1 h
    exact .inr (Site.mem_declaring_iff.1 hsite).2

theorem parameter_mem_inputSites {p : InputParameter} (h : p ∈ named) (hinline : p.Inline) :
    operation.parameter p.key ∈ Walk.inputSites operation facts named :=
  List.mem_append_left _ (List.mem_flatMap.2 ⟨p, h, Site.mem_declaring_iff.2 ⟨hinline, rfl⟩⟩)

end Sites

namespace Gathers

variable {operation : Site} {facts : OperationFacts} {named : List InputParameter}
  {members : List InputMember} {set : FragmentSet} {fragment : Fragment}

/-- What is declared in the namespace of the parameters is a parameter, under the identifier of its
    name. -/
theorem exists_of_nameIn? (h : Gathers operation (Walk.inputSites operation facts named) members set)
    (hmem : fragment ∈ set.fragments) {name : String}
    (hname : fragment.nameIn? operation.parameterSpace = some name) :
    ∃ p ∈ named, p.Inline ∧ fragment.reference = (operation.parameter p.key).reference ∧
      name = Naming.identifier p.key.name := by
  have hspace : operation.path ≠ operation.parameterSpace := by simp [Site.parameterSpace]
  have hconcrete : fragment.isAssumed = false ∧ fragment.isMember = false := by
    cases fragment <;> simp_all [Fragment.nameIn?, Fragment.isAssumed, Fragment.isMember]
  -- What is concrete in the set is the input itself, an enum, or declared at one of the sites; only
  -- the sites of parameters are in their space.
  rcases h.concrete fragment hmem hconcrete.1 hconcrete.2 with
    rfl | ⟨final, henum⟩ | ⟨site, hsite, body, rfl⟩
  · rw [Fragment.nameIn?_declare_child, if_neg hspace] at hname
    exact absurd hname (by simp)
  · rcases henum.nameIn?_eq operation.parameterSpace with hnone | henums
    · exact absurd hname (by simp [hnone])
    · have hlast := congrArg List.getLast? henums
      exact absurd hlast (by simp [Site.parameterSpace, EnumDeclaration.space])
  · rcases parameter_or_body_of_mem_inputSites hsite with ⟨p, hp, hinline, rfl⟩ | rfl
    · rw [nameIn?_parameter] at hname
      exact ⟨p, hp, hinline, rfl, (Option.some.inj hname).symm⟩
    · rw [Site.requestBody, Fragment.nameIn?_declare_child, if_neg hspace] at hname
      exact absurd hname (by simp)

/-- Under the reference of a parameter that is written out, one of that reference is declared. -/
theorem exists_nameIn?_eq (h : Gathers operation (Walk.inputSites operation facts named) members set)
    (hoperation : operation.UnderOperations) {p : InputParameter} (hp : p ∈ named)
    (hinline : p.Inline) :
    ∃ fragment ∈ set.fragments, fragment.reference = (operation.parameter p.key).reference ∧
      ∃ q ∈ named, q.Inline ∧
        (operation.parameter q.key).reference = (operation.parameter p.key).reference ∧
        fragment.nameIn? operation.parameterSpace = some (Naming.identifier q.key.name) := by
  have hunder := operation.under_parameter p.key
  obtain ⟨fragment, hmem, href, hconcrete⟩ := h.declared _ (parameter_mem_inputSites hp hinline)
  have hmember : fragment.isMember = false := by
    by_contra hmember
    have hkind : fragment.kind = .member := by
      cases fragment <;> simp_all [Fragment.isMember, Fragment.kind]
    have hfield := Fragment.mem_ofKind.2 ⟨hmem, hkind⟩
    rw [h.members] at hfield
    obtain ⟨member, -, rfl⟩ := List.mem_map.1 hfield
    exact (operation.under_field member.name).reference_ne hunder (by decide) href
  refine ⟨fragment, hmem, href, ?_⟩
  -- All other declarations have references of other segments.
  rcases h.concrete fragment hmem hconcrete hmember with
    rfl | ⟨final, henum⟩ | ⟨site, hsite, body, rfl⟩
  · exact absurd href ((operation.under_child "Input" (by decide)).reference_ne hunder (by decide))
  · exact absurd href.symm (hunder.ne_enum hoperation henum)
  · rcases parameter_or_body_of_mem_inputSites hsite with ⟨q, hq, hqinline, rfl⟩ | rfl
    · exact ⟨q, hq, hqinline, href, nameIn?_parameter ..⟩
    · exact absurd href (operation.under_requestBody.reference_ne hunder (by decide))

/-- Declarations of one name are of one key, so their references, which are distinct, would be equal. -/
theorem nodup_namesIn (h : Gathers operation (Walk.inputSites operation facts named) members set)
    (hdiffer : IdentifiersDiffer named) : (set.namesIn operation.parameterSpace).Nodup := by
  unfold FragmentSet.namesIn List.Nodup
  rw [List.pairwise_filterMap]
  refine (List.pairwise_map.1 h.nodup).imp_of_mem fun {a b} ha hb href name hname name' hname' heq => ?_
  obtain ⟨p, hp, hinline, hap, hnamed⟩ := h.exists_of_nameIn? ha hname
  obtain ⟨q, hq, hqinline, hbq, hnamed'⟩ := h.exists_of_nameIn? hb hname'
  have hne : p.key ≠ q.key := by
    intro hkey
    exact href (hap.trans (hkey ▸ hbq.symm))
  exact hdiffer p hp q hq hinline hqinline hne (hnamed.symm.trans (heq.trans hnamed'))

/-- Where places have no points, every parameter that is written out is declared under the identifier
    of its name. -/
theorem identifiersDiffer_of_nodup
    (h : Gathers operation (Walk.inputSites operation facts named) members set)
    (hoperation : operation.UnderOperations)
    (hplaces : ∀ p ∈ named, p.Inline → '.' ∉ p.key.place.toList)
    (hnodup : (set.namesIn operation.parameterSpace).Nodup) : IdentifiersDiffer named := by
  have hdeclared (p : InputParameter) (hp : p ∈ named) (hinline : p.Inline) :
      ∃ fragment ∈ set.fragments, fragment.reference = (operation.parameter p.key).reference ∧
        fragment.nameIn? operation.parameterSpace = some (Naming.identifier p.key.name) := by
    obtain ⟨fragment, hmem, href, q, hq, hqinline, hreference, hname⟩ :=
      h.exists_nameIn?_eq hoperation hp hinline
    have hkey := key_eq_of_reference_eq (hplaces q hq hqinline) (hplaces p hp hinline) hreference
    exact ⟨fragment, hmem, href, hkey ▸ hname⟩
  intro p hp q hq hinline hqinline hne heq
  obtain ⟨a, ha, hap, haname⟩ := hdeclared p hp hinline
  obtain ⟨b, hb, hbq, hbname⟩ := hdeclared q hq hqinline
  -- Two declarations of one name would be two places in a list without repetitions.
  have hab : a = b := Text.eq_of_nodup_filterMap hnodup ha hb haname (heq ▸ hbname)
  have href : (operation.parameter p.key).reference = (operation.parameter q.key).reference := by
    rw [← hap, hab, hbq]
  exact hne (key_eq_of_reference_eq (hplaces p hp hinline) (hplaces q hq hqinline) href)

end Gathers

open Walk in
/-- Parameters that are written out, of different keys, have members of different targets exactly if
    their names have different identifiers.  Then the namespace of the parameters declares no name
    twice; and if places have no points, it does so only then. -/
theorem operationInput_targets {walk : Walk} {id location : String} {facts : OperationFacts}
    {shared : List Located} {names names' : EnumNames} {set : FragmentSet}
    (h : (walk.operationInput (walk.operationSite id) location facts shared).Yields names set names') :
    ∃ (named : List InputParameter) (required : Bool),
      walk.Named (reservedNames facts) (walk.effectiveParameters shared
        (Located.items (Pointer.child location "parameters") facts.parameters)) named ∧
      Fragment.ofKind .member set.fragments =
        (walk.inputMembers (walk.operationSite id) facts named required).map
          (·.fragment (walk.operationSite id)) ∧
      ((∀ p ∈ named, ∀ q ∈ named, p.Inline → q.Inline → p.key ≠ q.key →
          (p.member walk (walk.operationSite id)).redirect.target ≠
            (q.member walk (walk.operationSite id)).redirect.target) ↔ IdentifiersDiffer named) ∧
      (IdentifiersDiffer named → (set.namesIn (walk.operationSite id).parameterSpace).Nodup) ∧
      ((∀ p ∈ named, p.Inline → '.' ∉ p.key.place.toList) →
        (set.namesIn (walk.operationSite id).parameterSpace).Nodup → IdentifiersDiffer named) := by
  have hoperation := Site.underOperations_operationSite walk id
  obtain ⟨named, required, hnamed, hgathers⟩ := gives_operationInput hoperation names set names' h
  refine ⟨named, required, hnamed, hgathers.members, ?_, hgathers.nodup_namesIn,
    hgathers.identifiersDiffer_of_nodup hoperation⟩
  have htarget (p : InputParameter) (hinline : p.Inline) :
      (p.member walk (walk.operationSite id)).redirect.target =
        (walk.operationSite id).parameterSpace ++ [Naming.identifier p.key.name] := by
    rw [InputParameter.member, redirectOf, hinline]
    rfl
  -- All these targets share the space of the parameters, so their last segments decide.
  have htargets (p q : InputParameter) (hp : p.Inline) (hq : q.Inline) :
      (p.member walk (walk.operationSite id)).redirect.target =
          (q.member walk (walk.operationSite id)).redirect.target ↔
        Naming.identifier p.key.name = Naming.identifier q.key.name := by
    rw [htarget p hp, htarget q hq, List.append_cancel_left_eq, List.cons.injEq]
    exact and_iff_left rfl
  constructor
  · intro hdiffer p hp q hq hinline hqinline hne heq
    exact hdiffer p hp q hq hinline hqinline hne ((htargets p q hinline hqinline).2 heq)
  · intro hdiffer p hp q hq hinline hqinline hne heq
    exact hdiffer p hp q hq hinline hqinline hne ((htargets p q hinline hqinline).1 heq)

/-- An operation with an identifier in the path and a parameter of that name in the query. -/
def queryFacts (name : String) : OperationFacts where
  parameters := [plainParameter "id" "path", plainParameter name "query"]

/-- The operation's input. -/
def queryInput (name : String) : Run FragmentSet :=
  emptyWalk.operationInput (emptyWalk.operationSite "getItem") "#" (queryFacts name) []

/-- The namespace in which the operation's parameters are declared. -/
def querySpace : List String :=
  (emptyWalk.operationSite "getItem").parameterSpace

/-- A limit is called otherwise than an identifier, and declared under another name. -/
theorem operationInput_targets_limit :
    ∃ set names', (queryInput "limit").Yields [] set names' ∧
      set.namesIn querySpace = ["Id", "Limit"] ∧
      ∃ named : List InputParameter,
        named.map (·.parameter.value) = (queryFacts "limit").parameters ∧ IdentifiersDiffer named := by
  have hany : ((queryInput "limit").outcome []).1.toOption.any (fun set =>
      set.namesIn querySpace == ["Id", "Limit"]) = true := by
    decide +kernel
  obtain ⟨set, names', hset, hcheck⟩ := Run.exists_yields_of_any hany
  have hspace : set.namesIn querySpace = ["Id", "Limit"] := eq_of_beq hcheck
  obtain ⟨named, required, hnamed, -, -, -, hconverse⟩ := operationInput_targets hset
  have hvalues : named.map (·.parameter.value) = (queryFacts "limit").parameters := by
    have hparameters := congrArg (List.map Located.value) hnamed.map_parameter
    rwa [List.map_map] at hparameters
  have hplaces : ∀ p ∈ named, p.Inline → '.' ∉ p.key.place.toList := by
    intro p hp hinline
    have hmem : p.parameter.value ∈ (queryFacts "limit").parameters :=
      hvalues ▸ List.mem_map_of_mem hp
    have hresolved : p.resolved = p.parameter.value :=
      Register.follow_eq_of_target?_eq_none hinline (hnamed.resolved_of_mem p hp)
    have hwritten : ∀ value ∈ (queryFacts "limit").parameters,
        '.' ∉ (ParameterKey.ofJson value).place.toList := by
      decide
    rw [InputParameter.key, hresolved]
    exact hwritten _ hmem
  have hnodup : (set.namesIn querySpace).Nodup := by
    rw [hspace]
    decide
  exact ⟨set, names', hset, hspace, named, hvalues, hconverse hplaces hnodup⟩

/-- Parameters of one name in the path and in the query have different keys, but their members redirect
    to one path, and the name is declared twice. -/
theorem operationInput_repeats_target :
    ∃ set names', (queryInput "id").Yields [] set names' ∧
      (emptyWalk.effectiveParameters [] (Located.items "#/parameters" (queryFacts "id").parameters)).map
          (fun parameter => (Pointer.target? parameter.value, emptyWalk.keyOf parameter.value)) =
        [(none, { name := "id", place := "path" }), (none, { name := "id", place := "query" })] ∧
      (Fragment.ofKind .member set.fragments).map Fragment.target? =
        [some ["API", "GetItem", "Parameters", "Id"], some ["API", "GetItem", "Parameters", "Id"]] ∧
      set.namesIn querySpace = ["Id", "Id"] := by
  have hany : ((queryInput "id").outcome []).1.toOption.any (fun set =>
      (Fragment.ofKind .member set.fragments).map Fragment.target? ==
          [some ["API", "GetItem", "Parameters", "Id"], some ["API", "GetItem", "Parameters", "Id"]] &&
        set.namesIn querySpace == ["Id", "Id"]) = true := by
    decide +kernel
  obtain ⟨set, names', hset, hcheck⟩ := Run.exists_yields_of_any hany
  rw [Bool.and_eq_true, beq_iff_eq, beq_iff_eq] at hcheck
  exact ⟨set, names', hset, by decide +kernel, hcheck.1, hcheck.2⟩

end Api

end Typewright
