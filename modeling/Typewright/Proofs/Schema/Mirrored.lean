import Typewright.Proofs.Fragment.Owned
import Typewright.Proofs.Fragment.Register
import Typewright.Proofs.Run.Mirrors
import Typewright.Proofs.Schema.Ensures
import Typewright.Proofs.Schema.Rules
import Typewright.Proofs.TypeExpr.Alike

/-!
# Typing a schema with enum declarations and without

With the option `realEnums` an enumeration of strings becomes the reference to an enum declaration,
without it a union of literals.  Where every reference to an enum stands for the values of the enum,
both are alike, and so is all that is made of them: typing a schema with the option mirrors typing it
without (`Schema.mirrors_typing`).  There is one lemma for each rule of typings.
-/

namespace Typewright

namespace Context

/-- The context in which the option `realEnums` has this value. -/
def withRealEnums (context : Context) (realEnums : Bool) : Context :=
  { context with options := { context.options with realEnums } }

variable (context : Context) (realEnums : Bool)

@[simp] theorem location_withRealEnums :
    (context.withRealEnums realEnums).location = context.location := rfl

theorem withRealEnums_descend (segment : String) :
    (context.withRealEnums realEnums).descend segment =
      (context.descend segment).withRealEnums realEnums := rfl

end Context

/-! ### Enums and their values -/

namespace EnumDeclaration

/-- The members of an enum stand for the values they were made from. -/
theorem map_value_membersFrom (taken values : List String) :
    (membersFrom taken values).map EnumMember.value = values := by
  induction values generalizing taken with
  | nil => rfl
  | cons value values ih =>
    rw [membersFrom, List.map_cons, ih]

/-- The value is the string of one of the members. -/
def Holds (declaration : EnumDeclaration) (value : Json) : Prop :=
  ∃ text ∈ declaration.members.map EnumMember.value, value = .string text

end EnumDeclaration

/-- Under the path of the enum that the fragment declares, if it does, there are just its values. -/
def Fragment.ReadAs (G : List String → Json → Prop) : Fragment → Prop
  | .declaration _ path (.enum enum) => ∀ value, G path value ↔ enum.Holds value
  | _ => True

/-- All enums that are declared in the set have just their values, by the names that stand for values
    in the end. -/
def FragmentSet.ReadAs (G : List String → Json → Prop) (final : EnumNames) (set : FragmentSet) : Prop :=
  ∀ fragment : Fragment, fragment.IsEnum final → set.Declared fragment.reference → fragment.ReadAs G

namespace Typing

/-- The typings cover the same values. -/
def Alike (G : List String → Json → Prop) (a b : Typing) : Prop :=
  ∀ value, a.Covers G value ↔ b.Covers G value

/-- The typings cover the same values where the enums that the first one declares are read as what
    they are. -/
def Agree (G : List String → Json → Prop) (final : EnumNames) (a b : Typing) : Prop :=
  a.emitted.ReadAs G final → a.Alike G b

/-- The types of the typings are alike one by one where the enums that the first one declares are read
    as what they are. -/
def AgreeEach (G : List String → Json → Prop) (final : EnumNames) (a b : Typing) : Prop :=
  a.emitted.ReadAs G final → List.Forall₂ (TypeExpr.Alike G) a.types b.types

variable {G : List String → Json → Prop} {final : EnumNames} {a b : Typing}

theorem Agree.refl (a : Typing) : Agree G final a a := fun _ _ => Iff.rfl

theorem Alike.unionType (h : a.Alike G b) : TypeExpr.Alike G a.unionType b.unionType := by
  intro value
  rw [admits_unionType_iff, admits_unionType_iff]
  exact h value

/-- Uniting the types changes nothing in what a typing admits. -/
theorem Alike.united (h : a.Alike G b) : a.united.Alike G b.united := by
  intro value
  rw [covers_united_iff, covers_united_iff]
  exact h value

/-- Typings of types that are alike one by one are alike. -/
theorem alike_of_types (h : List.Forall₂ (TypeExpr.Alike G) a.types b.types) : a.Alike G b :=
  fun value => TypeExpr.exists_admits_iff_of_alike h value

theorem AgreeEach.agree (h : AgreeEach G final a b) : Agree G final a b :=
  fun hread => alike_of_types (h hread)

end Typing

namespace Schema

variable {G : List String → Json → Prop} {final : EnumNames}

/-! ### Parts -/

/-- What one typing declares is declared by all of them together. -/
theorem declared_emittedOf {typings : List Typing} {typing : Typing} {reference : String}
    (htyping : typing ∈ typings) (h : typing.emitted.Declared reference) :
    (emittedOf typings).Declared reference := by
  obtain ⟨before, after, rfl⟩ := List.append_of_mem htyping
  unfold emittedOf
  rw [List.foldl_append, List.foldl_cons]
  exact Register.foldl_extend_induction (P := (FragmentSet.Declared · reference))
    (FragmentSet.declared_extend h) fun _ other _ hset => hset.extend other.emitted

/-- Where the enums of typings put together are read as what they are, so are those of each. -/
theorem readAs_of_emittedOf {typings : List Typing} (h : (emittedOf typings).ReadAs G final)
    {typing : Typing} (htyping : typing ∈ typings) : typing.emitted.ReadAs G final :=
  fun fragment henum hdeclared => h fragment henum (declared_emittedOf htyping hdeclared)

/-- Typings that agree one by one are alike one by one where all of their enums are read as what they
    are. -/
theorem alike_of_agree {as bs : List Typing} (h : List.Forall₂ (Typing.Agree G final) as bs)
    (hread : ∀ a ∈ as, a.emitted.ReadAs G final) : List.Forall₂ (Typing.Alike G) as bs := by
  induction h with
  | nil => exact .nil
  | cons hab _ ih =>
    rw [List.forall_mem_cons] at hread
    exact .cons (hab hread.1) (ih hread.2)

/-- The types of typings put together are alike one by one if they are so whenever the parts are
    alike. -/
theorem agreeEach_of_parts {as bs : List Typing} {types types' : List TypeExpr} {emitted : FragmentSet}
    (hparts : List.Forall₂ (Typing.Agree G final) as bs)
    (htypes : List.Forall₂ (Typing.Alike G) as bs → List.Forall₂ (TypeExpr.Alike G) types types') :
    Typing.AgreeEach G final { types, emitted := emittedOf as } { types := types', emitted } :=
  fun hread => htypes (alike_of_agree hparts fun _ ha => readAs_of_emittedOf hread ha)

theorem map_unionType_alike {as bs : List Typing} (h : List.Forall₂ (Typing.Alike G) as bs) :
    List.Forall₂ (TypeExpr.Alike G) (as.map (·.unionType)) (bs.map (·.unionType)) := by
  rw [List.forall₂_map_left_iff, List.forall₂_map_right_iff]
  exact h.imp fun _ _ hab => hab.unionType

theorem flatMap_united_eq (typings : List Typing) :
    typings.flatMap (·.united.types) = typings.map (·.unionType) := by
  induction typings with
  | nil => rfl
  | cons typing typings ih =>
    rw [List.flatMap_cons, ih]
    rfl

/-! ### Related runs -/

/-- The runs give typings that agree. -/
abbrev MirroredTyping (G : List String → Json → Prop) (claiming plain : Run Typing) : Prop :=
  Run.Mirrors claiming plain (Typing.Agree G)

/-- The runs give typings that agree one by one. -/
abbrev MirroredTypings (G : List String → Json → Prop) (claiming plain : Run (List Typing)) : Prop :=
  Run.Mirrors claiming plain fun final => List.Forall₂ (Typing.Agree G final)

/-- The schemas have one name, are both read-only or both not, and have related typings. -/
structure NamedAlike (R : Typing → Typing → Prop) (a b : NamedTyping) : Prop where
  name : a.name = b.name
  readOnly : a.readOnly = b.readOnly
  typing : R a.typing b.typing

/-- The runs give typings under names that agree one by one. -/
abbrev MirroredNamed (G : List String → Json → Prop) (claiming plain : Run (List NamedTyping)) : Prop :=
  Run.Mirrors claiming plain fun final => List.Forall₂ (NamedAlike (Typing.Agree G final))

theorem mirroredTyping_pure (typing : Typing) : MirroredTyping G (pure typing) (pure typing) :=
  Run.mirrors_pure fun _ => .refl typing

theorem MirroredTyping.united {claiming plain : Run Typing} (h : MirroredTyping G claiming plain) :
    MirroredTyping G (Typing.united <$> claiming) (Typing.united <$> plain) :=
  Run.mirrors_map h fun _ _ _ hab hread => (hab hread).united

/-- A warning touches no names, so both runs raise it or both fail. -/
theorem mirrors_warning {forbidden : Bool} {failure : Failure} {typing : Typing} :
    MirroredTyping G (if forbidden then throw failure else pure typing)
      (if forbidden then throw failure else pure typing) := by
  cases forbidden with
  | true => exact Run.mirrors_throw failure
  | false => exact mirroredTyping_pure typing

/-- A degraded schema does not ask for real enums. -/
theorem mirrors_unsupported (context : Context) :
    MirroredTyping G (context.withRealEnums true).unsupported
      (context.withRealEnums false).unsupported :=
  mirrors_warning

/-! ### Enumerations -/

/-- The literals of the values of an enum, where it is read as what it is. -/
theorem agree_realEnum {wish : String} {n : Nat} {texts : List String}
    (hlookup : final.lookup (Naming.numbered (Naming.identifier wish) n) = some texts) :
    let name := Naming.numbered (Naming.identifier wish) n
    Typing.Agree G final
      ((Typing.ofType (.reference (EnumDeclaration.pathOf name))).withFragment
        (EnumDeclaration.ofValues name texts).toFragment)
      (Typing.ofTypes ((texts.map Json.string).map TypeExpr.ofConst)) := by
  intro name hread value
  have hfragment := hread (EnumDeclaration.ofValues name texts).toFragment
    ⟨wish, n, texts, hlookup, rfl⟩ (FragmentSet.declared_push_self rfl)
  have hholds := hfragment value
  unfold EnumDeclaration.Holds at hholds
  rw [EnumDeclaration.ofValues, EnumDeclaration.map_value_membersFrom] at hholds
  -- The declared enum is read through its path, the literals as they stand; both mean one of the
  -- texts.
  have hreference : Typing.Covers G ((Typing.ofType (.reference (EnumDeclaration.pathOf name))).withFragment
      (EnumDeclaration.ofValues name texts).toFragment) value ↔ G (EnumDeclaration.pathOf name) value := by
    simp [Typing.Covers, Typing.ofType, Typing.withFragment, TypeExpr.Admits]
  have hliterals : Typing.Covers G (Typing.ofTypes ((texts.map Json.string).map TypeExpr.ofConst)) value ↔
      ∃ text ∈ texts, value = .string text := by
    simp [Typing.Covers, Typing.ofTypes, TypeExpr.ofConst, TypeExpr.Admits, Literal.toJson,
      Json.same_string_iff]
  rw [hreference, hliterals]
  exact hholds

/-- Claiming a name for an enum mirrors listing the literals of its values. -/
theorem mirrors_realEnumTyping (context : Context) (facts : Facts) (texts : List String) :
    MirroredTyping G (realEnumTyping context facts texts)
      (pure (Typing.ofTypes ((texts.map Json.string).map TypeExpr.ofConst))) := by
  have houtcome (names : EnumNames) :
      let claimed := names.claim (Naming.identifier (enumWish context facts)) texts
      (realEnumTyping context facts texts).outcome names =
        (.ok ((Typing.ofType (.reference (EnumDeclaration.pathOf claimed.1))).withFragment
          (EnumDeclaration.ofValues claimed.1 texts).toFragment), claimed.2) :=
    yields_realEnumTyping_iff.2 ⟨rfl, rfl⟩
  refine ⟨fun names => ?_, fun _ => rfl, fun names names₀ => ?_⟩
  · rw [houtcome]
    exact EnumNames.extends_claim _ _ _
  · rw [houtcome, Run.outcome_pure]
    refine .value fun final hfinal => ?_
    have hlookup := hfinal _ _ (EnumNames.lookup_claim names
      (Naming.identifier (enumWish context facts)) texts)
    -- Whichever number the claimed name has, it stands for the values in the end.
    obtain ⟨n, -, hname, -⟩ :=
      EnumNames.exists_searchEndsAt names (Naming.identifier (enumWish context facts)) texts
    rw [hname] at hlookup ⊢
    exact agree_realEnum hlookup

/-- If nothing is dropped by keeping the texts, there were only texts. -/
theorem eq_map_string_of_length_eq {values : List Json}
    (h : (values.filterMap Json.asString?).length = values.length) :
    values = (values.filterMap Json.asString?).map Json.string := by
  have hstrings := List.filterMap_length_eq_length.1 h
  clear h
  induction values with
  | nil => rfl
  | cons value values ih =>
    rw [List.forall_mem_cons] at hstrings
    obtain ⟨text, htext⟩ := Option.isSome_iff_exists.1 hstrings.1
    rw [List.filterMap_cons_some htext, List.map_cons, ← ih hstrings.2, ← Json.asString?_eq_some.1 htext]

/-- Only an enum of texts is typed in two ways; other enums are literals in both runs. -/
theorem mirrors_enumTyping (context : Context) (facts : Facts) (values : Json) :
    MirroredTyping G (enumTyping (context.withRealEnums true) facts values)
      (enumTyping (context.withRealEnums false) facts values) := by
  cases values with
  | array constants =>
    unfold enumTyping
    -- The plain run always writes literals, so only the other one branches.
    have hplain : (context.withRealEnums false).options.realEnums = false := rfl
    simp only [hplain, Bool.false_and, Bool.false_eq_true, if_false]
    split
    · next hreal =>
      simp only [Bool.and_eq_true, beq_iff_eq] at hreal
      have hstrings := eq_map_string_of_length_eq hreal.2
      have hmirrors := mirrors_realEnumTyping (G := G) (context.withRealEnums true) facts
        ((Text.distinctBy Json.text constants).filterMap Json.asString?)
      rwa [← hstrings] at hmirrors
    · exact mirroredTyping_pure _
  | _ => exact mirrors_warning

/-! ### Objects -/

/-- What agrees under the final names admits the same values if the enums it brings mean what `G`
    says. -/
theorem namedAlike_of_agree {as bs : List NamedTyping}
    (h : List.Forall₂ (NamedAlike (Typing.Agree G final)) as bs)
    (hread : ∀ a ∈ as, a.typing.emitted.ReadAs G final) :
    List.Forall₂ (NamedAlike (Typing.Alike G)) as bs := by
  induction h with
  | nil => exact .nil
  | cons hab _ ih =>
    rw [List.forall_mem_cons] at hread
    exact .cons ⟨hab.name, hab.readOnly, hab.typing hread.1⟩ (ih hread.2)

/-- Whether a property is optional or read-only does not depend on its type. -/
theorem alike_listedProperties (facts : Facts) {as bs : List NamedTyping}
    (h : List.Forall₂ (NamedAlike (Typing.Alike G)) as bs) :
    List.Forall₂ (TypeExpr.AlikeProperty G) (listedProperties facts as) (listedProperties facts bs) := by
  unfold listedProperties
  rw [List.forall₂_map_left_iff, List.forall₂_map_right_iff]
  refine h.imp fun a b hab => ⟨hab.name, ?_, hab.typing.unionType⟩
  simp only [hab.name]

theorem any_name_eq {as bs : List NamedTyping} (h : List.Forall₂ (NamedAlike (Typing.Alike G)) as bs) (name : String) :
    as.any (·.name == name) = bs.any (·.name == name) := by
  induction h with
  | nil => rfl
  | cons hab _ ih => rw [List.any_cons, List.any_cons, hab.name, ih]

theorem any_property_name_eq {ps qs : List (Property TypeExpr)}
    (h : List.Forall₂ (TypeExpr.AlikeProperty G) ps qs) (name : String) :
    ps.any (·.name == name) = qs.any (·.name == name) := by
  induction h with
  | nil => rfl
  | cons hpq _ ih => rw [List.any_cons, List.any_cons, hpq.name, ih]

/-- Which properties are added rests on names only. -/
theorem alike_foldl_requireProperty {patterns patterns' : List NamedTyping}
    (hpatterns : List.Forall₂ (NamedAlike (Typing.Alike G)) patterns patterns') (required : List String)
    {ps qs : List (Property TypeExpr)} (h : List.Forall₂ (TypeExpr.AlikeProperty G) ps qs) :
    List.Forall₂ (TypeExpr.AlikeProperty G) (required.foldl (requireProperty patterns) ps)
      (required.foldl (requireProperty patterns') qs) := by
  induction required generalizing ps qs with
  | nil => exact h
  | cons name required ih =>
    apply ih
    unfold requireProperty
    rw [any_name_eq hpatterns, any_property_name_eq h]
    split
    · exact h
    · exact List.rel_append h (.cons ⟨rfl, rfl, .refl _⟩ .nil)

/-- What tells about the other members: the types are alike, all else is equal. -/
theorem alike_indexSources (facts : Facts) {as bs : List NamedTyping}
    (h : List.Forall₂ (NamedAlike (Typing.Alike G)) as bs) :
    List.Forall₂ (fun i j => TypeExpr.Alike G i.type j.type) (indexSources facts as)
      (indexSources facts bs) := by
  have hpatterns : List.Forall₂ (fun i j : IndexSignature TypeExpr => TypeExpr.Alike G i.type j.type)
      (as.map fun pattern =>
        { type := pattern.typing.unionType
          optional := !facts.required.contains pattern.name
          readonly := pattern.readOnly })
      (bs.map fun pattern =>
        { type := pattern.typing.unionType
          optional := !facts.required.contains pattern.name
          readonly := pattern.readOnly }) := by
    rw [List.forall₂_map_left_iff, List.forall₂_map_right_iff]
    exact h.imp fun _ _ hab => hab.typing.unionType
  unfold indexSources
  refine List.rel_append hpatterns ?_
  exact List.forall₂_same.2 fun _ _ => .refl _

theorem alike_indexSignature {is js : List (IndexSignature TypeExpr)}
    (h : List.Forall₂ (fun i j => TypeExpr.Alike G i.type j.type) is js) :
    Option.Rel (fun i j => TypeExpr.Alike G i.type j.type) (indexSignature is) (indexSignature js) := by
  unfold indexSignature
  cases h with
  | nil => exact .none
  | cons hij hrest =>
    refine .some (TypeExpr.alike_unionOf ?_)
    rw [List.forall₂_map_left_iff, List.forall₂_map_right_iff]
    exact .cons hij hrest

/-- Objects agree member by member, and then in their index signatures. -/
theorem mirrors_objectTyping {facts : Facts} {properties patterns properties' patterns' : Run (List NamedTyping)}
    (hproperties : MirroredNamed G properties properties')
    (hpatterns : MirroredNamed G patterns patterns') :
    MirroredTyping G (objectTyping facts properties patterns)
      (objectTyping facts properties' patterns') := by
  unfold objectTyping
  refine Run.mirrors_bind hproperties fun ps qs _ _ => ?_
  refine Run.mirrors_bind hpatterns fun rs ss _ _ => ?_
  refine Run.mirrors_pure fun final hrs hps hread => ?_
  -- The enums of the properties are among those of the object, so they are read alike.
  have hread' : ∀ named ∈ ps ++ rs, named.typing.emitted.ReadAs G final := fun named hnamed =>
    readAs_of_emittedOf hread (List.mem_map_of_mem hnamed)
  rw [List.forall_mem_append] at hread'
  have hlisted := namedAlike_of_agree hps hread'.1
  have hothers := namedAlike_of_agree hrs hread'.2
  apply Typing.alike_of_types
  refine .cons (TypeExpr.alike_object ?_ ?_) .nil
  · exact alike_foldl_requireProperty hothers _ (alike_listedProperties facts hlisted)
  · exact alike_indexSignature (alike_indexSources facts hothers)

/-! ### Arrays -/

/-- The typings of a schema for items: both are closed, or none is. -/
structure MirroredItem (G : List String → Json → Prop) (claiming plain : ItemTyping) : Prop where
  closed : claiming.closed = plain.closed
  typing : MirroredTyping G claiming.typing plain.typing

/-- The typings of the schemas for items. -/
structure MirroredItems (G : List String → Json → Prop) (claiming plain : ItemTypings) : Prop where
  leading : Option.Rel (MirroredTypings G) claiming.leading plain.leading
  itemList : Option.Rel (MirroredTypings G) claiming.itemList plain.itemList
  itemSchema : Option.Rel (MirroredItem G) claiming.itemSchema plain.itemSchema
  additionalItems : Option.Rel (MirroredItem G) claiming.additionalItems plain.additionalItems

/-- Tuples agree place by place. -/
theorem mirrors_tupleTyping {elements elements' : Run (List Typing)} {rest rest' : Option (Run Typing)}
    (helements : MirroredTypings G elements elements') (hrest : Option.Rel (MirroredTyping G) rest rest') :
    MirroredTyping G (tupleTyping elements rest) (tupleTyping elements' rest') := by
  unfold tupleTyping
  refine Run.mirrors_bind helements fun as bs _ _ => ?_
  simp only [flatMap_united_eq]
  cases hrest with
  | some hrest =>
    refine Run.mirrors_bind hrest fun a b _ _ => ?_
    refine Run.mirrors_pure fun final hab has => ?_
    have hparts : List.Forall₂ (Typing.Agree G final) (as ++ [a]) (bs ++ [b]) :=
      List.rel_append has (.cons hab .nil)
    intro hread
    -- The enums of elements and rest are read together, so each part may rely on its own.
    have helements := alike_of_agree has fun other hother =>
      readAs_of_emittedOf hread (List.mem_append_left _ hother)
    have hlast := hab (readAs_of_emittedOf hread (List.mem_append_right _ (List.mem_singleton_self a)))
    apply Typing.alike_of_types
    exact .cons (TypeExpr.alike_tuple (map_unionType_alike helements) (.some hlast.unionType)) .nil
  | none =>
    refine Run.mirrors_pure fun final has => (agreeEach_of_parts has fun halike => ?_).agree
    exact .cons (TypeExpr.alike_tuple (map_unionType_alike halike) .none) .nil

/-- How many items there may be does not depend on their type. -/
theorem alike_uniformType (limit : Nat) (minItems maxItems : Option Double) {a b : TypeExpr}
    (h : TypeExpr.Alike G a b) :
    TypeExpr.Alike G (uniformType limit minItems maxItems a) (uniformType limit minItems maxItems b) := by
  have hrepeated (count : Nat) :
      List.Forall₂ (TypeExpr.Alike G) (List.replicate count a) (List.replicate count b) := by
    induction count with
    | zero => exact .nil
    | succ count ih => exact .cons h ih
  unfold uniformType
  split
  · exact TypeExpr.alike_array h
  · simp only
    split
    · exact TypeExpr.alike_tuple (hrepeated _) .none
    · split
      · exact TypeExpr.alike_tuple (hrepeated _) (.some h)
      · exact TypeExpr.alike_array h

theorem mirrors_uniformTyping (context : Context) {facts : Facts} {item item' : Option (Run Typing)}
    (hitem : Option.Rel (MirroredTyping G) item item') :
    MirroredTyping G (uniformTyping (context.withRealEnums true) facts item)
      (uniformTyping (context.withRealEnums false) facts item') := by
  have hdefault : MirroredTyping G (item.getD (pure (Typing.ofType .unknown)))
      (item'.getD (pure (Typing.ofType .unknown))) := by
    cases hitem with
    | some hitem => exact hitem
    | none => exact mirroredTyping_pure _
  unfold uniformTyping
  refine Run.mirrors_bind hdefault fun a b _ _ => Run.mirrors_pure fun final hab => ?_
  refine (agreeEach_of_parts (.cons hab .nil) fun halike => ?_).agree
  rw [List.forall₂_cons] at halike
  exact .cons (alike_uniformType _ _ _ halike.1.unionType) .nil

theorem mirrors_restOf {item item' : Option ItemTyping} (h : Option.Rel (MirroredItem G) item item') :
    Option.Rel (MirroredTyping G) (restOf item) (restOf item') := by
  cases h with
  | none => exact .none
  | @some claiming plain h =>
    unfold restOf
    rw [Option.filter_some, Option.filter_some, h.closed]
    split
    · exact .some h.typing
    · exact .none

/-- Arrays agree as tuples or as arrays of one type; both runs take the same way. -/
theorem mirrors_arrayTyping (context : Context) {facts : Facts} {items items' : ItemTypings}
    (h : MirroredItems G items items') :
    MirroredTyping G (arrayTyping (context.withRealEnums true) facts items)
      (arrayTyping (context.withRealEnums false) facts items') := by
  obtain ⟨leading, itemList, itemSchema, additional⟩ := items
  obtain ⟨leading', itemList', itemSchema', additional'⟩ := items'
  obtain ⟨hleading, hlist, hitem, hadditional⟩ := h
  -- The rest after the leading items is looked for in two places, the same two in both runs.
  have hafter : Option.Rel (MirroredItem G) (itemSchema.or additional) (itemSchema'.or additional') := by
    cases hitem with
    | some hitem => exact .some hitem
    | none => exact hadditional
  unfold arrayTyping
  split
  · exact mirroredTyping_pure _
  · cases hleading with
    | some hleading => exact mirrors_tupleTyping hleading (mirrors_restOf hafter)
    | none =>
      cases hlist with
      | some hlist => exact mirrors_tupleTyping hlist (mirrors_restOf hadditional)
      | none =>
        refine mirrors_uniformTyping context ?_
        cases hitem with
        | some hitem => exact .some hitem.typing
        | none => exact .none

/-! ### Branches and types -/

/-- The typings of the branches of a schema. -/
structure MirroredBranches (G : List String → Json → Prop) (claiming plain : BranchTypings) : Prop where
  anyOf : Option.Rel (MirroredTypings G) claiming.anyOf plain.anyOf
  allOf : Option.Rel (MirroredTypings G) claiming.allOf plain.allOf
  oneOf : Option.Rel (MirroredTypings G) claiming.oneOf plain.oneOf

theorem mirrors_combineBranches {combine : List TypeExpr → TypeExpr}
    (hcombine : ∀ {as bs}, List.Forall₂ (TypeExpr.Alike G) as bs →
      TypeExpr.Alike G (combine as) (combine bs))
    {branches branches' : Option (Run (List Typing))}
    (h : Option.Rel (MirroredTypings G) branches branches') :
    Run.Mirrors (combineBranches combine branches) (combineBranches combine branches')
      fun final => Option.Rel (Typing.AgreeEach G final) := by
  cases h with
  | none => exact Run.mirrors_pure fun _ => .none
  | some h =>
    refine Run.mirrors_bind h fun as bs _ _ => Run.mirrors_pure fun final has => ?_
    refine .some (agreeEach_of_parts has fun halike => ?_)
    exact .cons (hcombine (map_unionType_alike halike)) .nil

theorem forall₂_toList {α β : Type} {R : α → β → Prop} {a : Option α} {b : Option β}
    (h : Option.Rel R a b) : List.Forall₂ R a.toList b.toList := by
  cases h with
  | none => exact .nil
  | some h => exact .cons h .nil

/-- Where the types of several typings agree one by one, so do all of them in a row. -/
theorem alike_flatMap_types {as bs : List Typing} (h : List.Forall₂ (Typing.AgreeEach G final) as bs)
    (hread : ∀ a ∈ as, a.emitted.ReadAs G final) :
    List.Forall₂ (TypeExpr.Alike G) (as.flatMap (·.types)) (bs.flatMap (·.types)) := by
  induction h with
  | nil => exact .nil
  | cons hab _ ih =>
    rw [List.forall_mem_cons] at hread
    rw [List.flatMap_cons, List.flatMap_cons]
    exact List.rel_append (hab hread.1) (ih hread.2)

/-- Branches are combined keyword by keyword, in the same order in both runs. -/
theorem mirrors_composedTyping (context : Context) {branches branches' : BranchTypings}
    (h : MirroredBranches G branches branches') :
    Run.Mirrors (composedTyping (context.withRealEnums true) branches)
      (composedTyping (context.withRealEnums false) branches') (Typing.AgreeEach G) := by
  unfold composedTyping
  refine Run.mirrors_bind (mirrors_combineBranches TypeExpr.alike_unionOf h.anyOf)
    fun anyOf anyOf' names hanyOf => ?_
  refine Run.mirrors_bind (mirrors_combineBranches TypeExpr.alike_intersectionOf h.allOf)
    fun allOf allOf' names' hallOf => ?_
  refine Run.mirrors_bind (mirrors_combineBranches TypeExpr.alike_unionOf h.oneOf)
    fun oneOf oneOf' names'' honeOf => ?_
  -- Whether there is any branch is the same in both runs, whatever the names are in the end.
  have hempty : (anyOf.toList ++ allOf.toList ++ oneOf.toList).isEmpty =
      (anyOf'.toList ++ allOf'.toList ++ oneOf'.toList).isEmpty := by
    cases hanyOf <;> cases hallOf <;> cases honeOf <;> rfl
  simp only [hempty]
  split
  · exact Run.mirrors_throw _
  · refine Run.mirrors_pure fun final honeOf hallOf hanyOf hread => ?_
    have hcombined := List.rel_append (List.rel_append (forall₂_toList hanyOf) (forall₂_toList hallOf))
      (forall₂_toList honeOf)
    have htypes := alike_flatMap_types hcombined fun a ha => readAs_of_emittedOf hread ha
    exact .cons (TypeExpr.alike_intersectionOf htypes) .nil

/-- The alternative for a type name asks the parts for objects and arrays only. -/
theorem mirrors_alternative (context : Context) {nullable : Bool}
    {object array object' array' : Run Typing} (hobject : MirroredTyping G object object')
    (harray : MirroredTyping G array array') (name : String) :
    MirroredTyping G (alternative (context.withRealEnums true) nullable object array name)
      (alternative (context.withRealEnums false) nullable object' array' name) := by
  unfold alternative
  split
  · exact mirroredTyping_pure _
  · exact mirroredTyping_pure _
  · exact mirroredTyping_pure _
  · exact mirroredTyping_pure _
  · exact hobject.united
  · exact harray.united
  · exact Run.mirrors_throw _

/-- The union of all alternatives of several typings. -/
theorem alike_unionOf_flatMap {as bs : List Typing} (h : List.Forall₂ (Typing.Alike G) as bs) :
    TypeExpr.Alike G (TypeExpr.unionOf (as.flatMap (·.types))) (TypeExpr.unionOf (bs.flatMap (·.types))) := by
  intro value
  rw [TypeExpr.admits_unionOf_iff, TypeExpr.admits_unionOf_iff]
  induction h with
  | nil => exact Iff.rfl
  | cons hab _ ih =>
    simp only [List.flatMap_cons, List.mem_append, or_and_right, exists_or]
    exact or_congr (hab value) ih

/-- Alternatives together with what branches add to them; brand and null are the same. -/
theorem agree_typed {as bs : List Typing} {added added' : Option Typing} {brand null : List TypeExpr}
    {emitted : FragmentSet} (has : List.Forall₂ (Typing.Agree G final) as bs)
    (hadded : Option.Rel (Typing.AgreeEach G final) added added') :
    Typing.Agree G final
      { types := TypeExpr.intersectionOf (TypeExpr.unionOf (as.flatMap (·.types)) ::
          added.toList.flatMap (·.types) ++ brand) :: null
        emitted := emittedOf (as ++ added.toList) }
      { types := TypeExpr.intersectionOf (TypeExpr.unionOf (bs.flatMap (·.types)) ::
          added'.toList.flatMap (·.types) ++ brand) :: null
        emitted } := by
  intro hread
  have halternatives := alike_of_agree has fun a ha =>
    readAs_of_emittedOf hread (List.mem_append_left _ ha)
  have hcomposed := alike_flatMap_types (forall₂_toList hadded) fun a ha =>
    readAs_of_emittedOf hread (List.mem_append_right _ ha)
  -- Brand and `null` are the same on both sides.
  have hsame {types : List TypeExpr} : List.Forall₂ (TypeExpr.Alike G) types types :=
    List.forall₂_same.2 fun _ _ => .refl _
  apply Typing.alike_of_types
  refine .cons (TypeExpr.alike_intersectionOf ?_) hsame
  exact List.rel_append (.cons (alike_unionOf_flatMap halternatives) hcomposed) hsame

/-- A schema with type names agrees if its parts and its branches do. -/
theorem mirrors_typedTyping (context : Context) {facts : Facts} {names : List String}
    {object array object' array' : Run Typing} {branches branches' : Json → BranchTypings}
    (hobject : MirroredTyping G object object') (harray : MirroredTyping G array array')
    (hbranches : ∀ parent, MirroredBranches G (branches parent) (branches' parent)) :
    MirroredTyping G (typedTyping (context.withRealEnums true) facts names object array branches)
      (typedTyping (context.withRealEnums false) facts names object' array' branches') := by
  have hbrand : brandType? (context.withRealEnums true) facts =
      brandType? (context.withRealEnums false) facts := rfl
  unfold typedTyping
  refine Run.mirrors_bind (Run.mirrors_mapM fun name _ =>
    mirrors_alternative context hobject harray name) fun as bs _ has => ?_
  -- Both runs have as many alternatives, so they take the same branch.
  have hempty : as.isEmpty = bs.isEmpty := by cases has <;> rfl
  simp only [hbrand, hempty]
  split
  · exact (mirroredTyping_pure _).mono fun _ _ _ h _ => h
  · split
    · have hcomposed (parent : Json) := Run.mirrors_map
        (mirrors_composedTyping context (hbranches parent))
        fun final _ _ h => Option.Rel.some (r := Typing.AgreeEach G final) h
      refine Run.mirrors_bind (hcomposed _) fun added added' _ _ => ?_
      exact Run.mirrors_pure fun final hadded has => agree_typed has hadded
    · exact Run.mirrors_pure fun final has => agree_typed has .none

/-! ### Schemas -/

section Inner

variable {context : Context} {fields : List (String × Json)}

/-- The schemas inside this one are typed alike with enum declarations and without. -/
def InnerMirrored (G : List String → Json → Prop) (value : Json) : Prop :=
  ∀ inner, inner.Inside value → ∀ (context : Context) parent,
    MirroredTyping G ((ofJson inner).typing (context.withRealEnums true) parent)
      ((ofJson inner).typing (context.withRealEnums false) parent)

/-- Items agree place by place, each typed at its own index. -/
theorem mirrors_itemTypings (context : Context) {items : List Json} {parent : Option Json}
    (h : ∀ item ∈ items, ∀ context : Context,
      MirroredTyping G ((ofJson item).typing (context.withRealEnums true) parent)
        ((ofJson item).typing (context.withRealEnums false) parent)) (index : Nat) :
    MirroredTypings G (itemTypings (context.withRealEnums true) parent index (ofItems items))
      (itemTypings (context.withRealEnums false) parent index (ofItems items)) := by
  induction items generalizing index with
  | nil =>
    rw [ofItems, itemTypings, itemTypings]
    exact Run.mirrors_pure fun _ => .nil
  | cons item items ih =>
    rw [ofItems, itemTypings, itemTypings, Context.withRealEnums_descend, Context.withRealEnums_descend]
    refine Run.mirrors_bind (h item List.mem_cons_self _) fun a b _ _ => ?_
    refine Run.mirrors_bind (ih (fun item hitem => h item (List.mem_cons_of_mem _ hitem)) _)
      fun as bs _ _ => ?_
    exact Run.mirrors_pure fun _ hrest hfirst => .cons hfirst hrest

/-- Fields agree name by name, with hints and without. -/
theorem mirrors_fieldTypings (context : Context) {hinting : Bool}
    (h : ∀ field ∈ fields, ∀ context : Context,
      MirroredTyping G ((ofJson field.2).typing (context.withRealEnums true) none)
        ((ofJson field.2).typing (context.withRealEnums false) none)) :
    MirroredNamed G (fieldTypings (context.withRealEnums true) hinting (ofFields fields))
      (fieldTypings (context.withRealEnums false) hinting (ofFields fields)) := by
  induction fields with
  | nil =>
    rw [ofFields, fieldTypings, fieldTypings]
    exact Run.mirrors_pure fun _ => .nil
  | cons field fields ih =>
    obtain ⟨name, value⟩ := field
    -- The option is set before or after going down to a field, with the same context.
    have hinner (realEnums : Bool) :
        (if hinting then ((context.withRealEnums realEnums).descend name).named name
          else (context.withRealEnums realEnums).descend name) =
        (if hinting then (context.descend name).named name else context.descend name).withRealEnums
          realEnums := by
      cases hinting <;> rfl
    rw [ofFields, fieldTypings, fieldTypings]
    simp only [hinner]
    refine Run.mirrors_bind (h (name, value) List.mem_cons_self _) fun a b _ _ => ?_
    refine Run.mirrors_bind (ih fun field hfield => h field (List.mem_cons_of_mem _ hfield))
      fun as bs _ _ => ?_
    exact Run.mirrors_pure fun _ hrest hfirst => .cons ⟨rfl, rfl, hfirst⟩ hrest

theorem mirrors_keywordTypings (h : InnerMirrored G (.object fields)) (parent : Option Json)
    (keyword : String) :
    Option.Rel (MirroredTypings G)
      (keywordTypings (context.withRealEnums true) parent (.object fields) keyword)
      (keywordTypings (context.withRealEnums false) parent (.object fields) keyword) := by
  unfold keywordTypings
  cases hitems : (Json.object fields).items? keyword with
  | none => exact .none
  | some items =>
    refine .some (mirrors_itemTypings (context.descend keyword) (fun item hitem context' => ?_) 0)
    exact h item (Json.inside_of_mem_items? hitems hitem) context' parent

theorem mirrors_keywordTyping (h : InnerMirrored G (.object fields)) (keyword : String) :
    Option.Rel (MirroredItem G) (keywordTyping (context.withRealEnums true) (.object fields) keyword)
      (keywordTyping (context.withRealEnums false) (.object fields) keyword) := by
  unfold keywordTyping
  cases hunlisted : unlisted? (.object fields) keyword with
  | none => exact .none
  | some inner =>
    have hinside := Json.inside_of_field? (field?_of_unlisted? hunlisted)
    exact .some ⟨rfl, h inner hinside (context.descend keyword) none⟩

theorem mirrors_namedTypings (h : InnerMirrored G (.object fields)) (hinting : Bool) (keyword : String) :
    MirroredNamed G (namedTypings (context.withRealEnums true) hinting (.object fields) keyword)
      (namedTypings (context.withRealEnums false) hinting (.object fields) keyword) := by
  unfold namedTypings
  refine mirrors_fieldTypings (context.descend keyword) fun field hfield context' => ?_
  cases hentries : (Json.object fields).entries? keyword with
  | none => simp [hentries] at hfield
  | some entries =>
    rw [hentries] at hfield
    exact h field.2 (Json.inside_of_mem_entries? hentries hfield) context' none

theorem mirrors_branchTypings (h : InnerMirrored G (.object fields)) (parent : Option Json) :
    MirroredBranches G (branchTypings (context.withRealEnums true) (.object fields) parent)
      (branchTypings (context.withRealEnums false) (.object fields) parent) :=
  ⟨mirrors_keywordTypings h parent "anyOf", mirrors_keywordTypings h parent "allOf",
    mirrors_keywordTypings h parent "oneOf"⟩

/-- The shape is read from the keywords alone, so both runs have the same one. -/
theorem mirrors_shapeTyping (h : InnerMirrored G (.object fields)) (shape : Shape) :
    MirroredTyping G (shapeTyping (context.withRealEnums true) (.object fields) shape)
      (shapeTyping (context.withRealEnums false) (.object fields) shape) := by
  unfold shapeTyping
  cases shape with
  | null => exact mirroredTyping_pure _
  | reference reference => exact mirroredTyping_pure _
  | const value => exact mirroredTyping_pure _
  | enum values => exact mirrors_enumTyping context _ values
  | typed names =>
    refine mirrors_typedTyping context ?_ ?_ fun parent => mirrors_branchTypings h (some parent)
    · exact mirrors_objectTyping (mirrors_namedTypings h true "properties")
        (mirrors_namedTypings h false "patternProperties")
    · exact mirrors_arrayTyping context ⟨mirrors_keywordTypings h none "prefixItems",
        mirrors_keywordTypings h none "items", mirrors_keywordTyping h "items",
        mirrors_keywordTyping h "additionalItems"⟩
  | composed =>
    exact (mirrors_composedTyping context (mirrors_branchTypings h none)).mono fun _ _ _ h => h.agree
  | unsupported => exact mirrors_unsupported context

end Inner

/-- Typing a schema with enum declarations mirrors typing it without. -/
theorem mirrors_typing (schema : Json) (context : Context) (parent : Option Json) :
    MirroredTyping G ((ofJson schema).typing (context.withRealEnums true) parent)
      ((ofJson schema).typing (context.withRealEnums false) parent) := by
  induction schema using Json.inside_induction generalizing context parent with
  | _ schema ih =>
    cases schema with
    | bool allowed =>
      rw [ofJson]
      cases allowed <;> rw [typing, typing] <;> exact mirroredTyping_pure _
    | object fields =>
      rw [typing_object, typing_object, Context.location_withRealEnums, Context.location_withRealEnums]
      split
      · exact Run.mirrors_throw _
      · exact mirrors_shapeTyping (fun inner hinside context' parent' => ih inner hinside context' parent') _
    | _ =>
      rw [ofJson_eq_malformed (by simp [Json.kind]) (by simp [Json.kind]), typing, typing]
      exact mirrors_unsupported context

end Schema

end Typewright
