import Mathlib.Logic.Relation
import Typewright.Proofs.Fragment.Store
import Typewright.Proofs.Schema.Rules

/-!
# Typings announce what they mention

The fragments that come with the types of a schema are assumed ones and enum declarations.  Each of
them announces a path, and the paths announced are the paths that the types mention
(`Schema.announces_of_mentions_and_conversely`), but for schemas that drop the type of their items.
-/

namespace Typewright

namespace Fragment

/-- Whether the fragment is assumed or declares an enum. -/
def isAnnouncement : Fragment → Bool
  | assumed _ => true
  | declaration _ _ (.enum _) => true
  | _ => false

/-- The fragment announces the path that its reference will be declared under, or declares an enum
    under the path. -/
def Announces (baseName : String) : Fragment → List String → Prop
  | assumed reference, path => declarationPath baseName reference = path
  | declaration _ declared (.enum _), path => declared = path
  | _, _ => False

end Fragment

namespace Schema

/-! ### Sets put together -/

variable {typings : List Typing} {reference : String} {fragment : Fragment}

theorem exists_of_mem_emittedOf (h : fragment ∈ (emittedOf typings).fragments) :
    ∃ typing ∈ typings, fragment ∈ typing.emitted.fragments := by
  have hfold (set : FragmentSet) (h : fragment ∈ (typings.foldl
      (fun set typing => set.extend typing.emitted) set).fragments) :
      fragment ∈ set.fragments ∨ ∃ typing ∈ typings, fragment ∈ typing.emitted.fragments := by
    clear * - h
    induction typings generalizing set with
    | nil => exact .inl h
    | cons typing typings ih =>
      rcases ih _ h with h | ⟨other, hother, h⟩
      · exact (Fragment.mem_combine h).imp_right fun h => ⟨typing, List.mem_cons_self, h⟩
      · exact .inr ⟨other, List.mem_cons_of_mem _ hother, h⟩
  exact (hfold {} h).resolve_left List.not_mem_nil

theorem stored_emittedOf_iff :
    (emittedOf typings).Stored reference ↔ ∃ typing ∈ typings, typing.emitted.Stored reference := by
  have hfold (set : FragmentSet) :
      (typings.foldl (fun set typing => set.extend typing.emitted) set).Stored reference ↔
        set.Stored reference ∨ ∃ typing ∈ typings, typing.emitted.Stored reference := by
    induction typings generalizing set with
    | nil => simp
    | cons typing typings ih =>
      rw [List.foldl_cons, ih, FragmentSet.stored_extend_iff, or_assoc]
      simp
  exact (hfold {}).trans (or_iff_right List.not_mem_nil)

/-! ### Announcing typings -/

/-- Every fragment announces the path of its reference, and all paths that the types mention are
    announced; the types mention all that is announced if the typing is exact. -/
structure Announcing (exact : Prop) (baseName : String) (typing : Typing) : Prop where
  announces : ∀ fragment ∈ typing.emitted.fragments, fragment.isAnnouncement = true ∧
    ∀ path, fragment.Announces baseName path ↔ declarationPath baseName fragment.reference = path
  exists_stored : ∀ path, typing.Mentions path →
    ∃ reference, typing.emitted.Stored reference ∧ declarationPath baseName reference = path
  mentions : exact → ∀ reference, typing.emitted.Stored reference →
    typing.Mentions (declarationPath baseName reference)

variable {exact : Prop} {baseName : String}

/-- Nothing is mentioned, and nothing announced. -/
theorem announcing_of_mentions_eq_nil {typing : Typing} (hemitted : typing.emitted.fragments = [])
    (htypes : ∀ type ∈ typing.types, type.mentions = []) : Announcing exact baseName typing := by
  refine ⟨fun fragment hfragment => ?_, ?_, fun _ reference hstored => ?_⟩
  · rw [hemitted] at hfragment
    exact absurd hfragment List.not_mem_nil
  · rintro path ⟨type, htype, hpath⟩
    rw [htypes type htype] at hpath
    exact absurd hpath List.not_mem_nil
  · rw [FragmentSet.Stored, Fragment.Stored, hemitted] at hstored
    exact absurd hstored List.not_mem_nil

/-- A type mentions just the path that the fragment with it announces. -/
theorem announcing_withFragment {path : List String} (h : fragment.isAnnouncement = true)
    (hannounces : ∀ path, fragment.Announces baseName path ↔
      declarationPath baseName fragment.reference = path)
    (hpath : declarationPath baseName fragment.reference = path) :
    Announcing exact baseName ((Typing.ofType (.reference path)).withFragment fragment) := by
  -- In an empty store the fragment stands alone, whether it is concrete or assumed.
  have hput : Fragment.put [] fragment = [fragment] := by
    cases hassumed : fragment.isAssumed <;> simp [Fragment.put, Fragment.isStored, hassumed]
  refine ⟨fun other hother => ?_, ?_, fun _ reference hstored => ?_⟩
  · obtain rfl : other = fragment := List.mem_singleton.1 (hput ▸ hother)
    exact ⟨h, hannounces⟩
  · rintro other ⟨type, htype, hother⟩
    rw [List.mem_singleton.1 htype] at hother
    rw [List.mem_singleton.1 hother]
    exact ⟨fragment.reference, FragmentSet.stored_push_self, hpath⟩
  · obtain rfl : reference = fragment.reference := by
      change reference ∈ (Fragment.put [] fragment).map _ at hstored
      rwa [hput, List.map_singleton, List.mem_singleton] at hstored
    refine ⟨.reference path, List.mem_singleton_self _, ?_⟩
    rw [hpath]
    exact List.mem_singleton_self _

theorem Announcing.united {typing : Typing} (h : Announcing exact baseName typing) :
    Announcing exact baseName typing.united := by
  have hunited (path : List String) : typing.united.Mentions path ↔ typing.Mentions path := by
    refine Iff.trans ?_ Typing.mem_mentions_unionType_iff
    simp [Typing.Mentions, Typing.united]
  refine ⟨h.announces, fun path hpath => h.exists_stored path ((hunited path).1 hpath), ?_⟩
  exact fun hexact reference hstored => (hunited _).2 (h.mentions hexact reference hstored)

theorem announcing_of_parts {limit : Nat} {schema : Json} {types : List TypeExpr}
    (hassembles : Assembles limit schema typings types)
    (hkeeps : exact → dropsItems limit schema = false)
    (h : ∀ typing ∈ typings, Announcing exact baseName typing) :
    Announcing exact baseName { types, emitted := emittedOf typings } := by
  refine ⟨fun fragment hfragment => ?_, ?_, fun hexact reference hstored => ?_⟩
  · obtain ⟨typing, htyping, hfragment⟩ := exists_of_mem_emittedOf hfragment
    exact (h typing htyping).announces fragment hfragment
  · rintro path ⟨type, htype, hpath⟩
    obtain ⟨typing, htyping, hpath⟩ := hassembles.exists_part type htype path hpath
    obtain ⟨reference, hstored, hpath⟩ := (h typing htyping).exists_stored path hpath
    exact ⟨reference, stored_emittedOf_iff.2 ⟨typing, htyping, hstored⟩, hpath⟩
  · obtain ⟨typing, htyping, hstored⟩ := stored_emittedOf_iff.1 hstored
    exact hassembles.exists_type (hkeeps hexact) typing htyping _
      ((h typing htyping).mentions hexact reference hstored)

/-! ### Schemas that keep the types of their items -/

/-- No schema that the schema is made of drops the type of its items. -/
def KeepsItems (limit : Nat) (schema : Json) : Prop :=
  ∀ inner, Relation.ReflTransGen Subschema inner schema → dropsItems limit inner = false

/-- A schema that nowhere bounds the length of arrays from below keeps the types of their items. -/
theorem keepsItems_of_notMem_keys {limit : Nat} {schema : Json} (h : "minItems" ∉ schema.keys) :
    KeepsItems limit schema := by
  intro inner hreaches
  -- Whatever is reached has only keys of the schema, so none has a least number of items.
  have hkeys : inner.keys ⊆ schema.keys := by
    induction hreaches with
    | refl => exact List.Subset.refl _
    | tail _ hinner ih =>
      have hkeys := Json.keys_subset_of_inside hinner.inside
      exact List.Subset.trans (ih fun hmem => h (hkeys hmem)) hkeys
  have hfield : inner.field? "minItems" = none := by
    by_contra hsome
    obtain ⟨value, hvalue⟩ := Option.ne_none_iff_exists'.1 hsome
    obtain ⟨fields, rfl, hlookup⟩ := Json.field?_eq_some.1 hvalue
    refine h (hkeys ?_)
    rw [Json.keys, Json.keysOfFields_eq]
    exact List.mem_flatMap.2 ⟨_, Json.mem_of_lookup hlookup, List.mem_cons_self⟩
  rw [dropsItems, Json.double?, hfield]
  rfl

/-- All rules for typings keep them announcing, and exact where no schema drops its items. -/
theorem announcingRules (exact : Prop) (final : EnumNames) (baseName : String) (limit : Nat) :
    TypingRules final baseName limit (fun schema => exact → KeepsItems limit schema)
      (Announcing exact baseName) where
  inner hkeeps hinner hexact inner hreaches := hkeeps hexact inner (hreaches.tail hinner)
  plain h _ := announcing_of_mentions_eq_nil rfl h
  degraded warning _ := announcing_of_mentions_eq_nil rfl fun type htype => by
    rw [List.mem_singleton.1 htype]
    rfl
  reference _ _ := announcing_withFragment rfl (fun _ => Iff.rfl) rfl
  enum wish n values _ := by
    have hpath := EnumDeclaration.declarationPath_referenceOf baseName wish n
    exact announcing_withFragment rfl (fun path => iff_of_eq (congrArg (· = path) hpath.symm)) hpath
  united h := h.united
  parts hkeeps hassembles h := announcing_of_parts hassembles (fun hexact => hkeeps hexact _ .refl) h

/-- The fragments that come with the types of a schema are assumed ones and enum declarations.  They
    announce every path that the types mention, and nothing else unless a schema drops the type of its
    items. -/
theorem announces_of_mentions_and_conversely {schema : Json} {context : Context} {parent : Option Json}
    {names names' : EnumNames} {typing : Typing}
    (h : ((ofJson schema).typing context parent).Yields names typing names') :
    (∀ fragment ∈ typing.emitted.fragments, fragment.isAnnouncement = true) ∧
      (∀ path, (∃ type ∈ typing.types, path ∈ type.mentions) →
        ∃ fragment ∈ typing.emitted.fragments, fragment.Announces context.baseName path) ∧
      (KeepsItems context.options.tupleLimit schema →
        ∀ path, (∃ fragment ∈ typing.emitted.fragments, fragment.Announces context.baseName path) →
          ∃ type ∈ typing.types, path ∈ type.mentions) := by
  have hannouncing : Announcing (KeepsItems context.options.tupleLimit schema) context.baseName typing :=
    Run.gives_of_givesWithin (fun final => TypingRules.givesWithin_typing schema context parent
      (announcingRules _ final _ _) id) _ _ _ h
  refine ⟨fun fragment hfragment => (hannouncing.announces fragment hfragment).1, fun path hpath => ?_,
    ?_⟩
  · obtain ⟨reference, hstored, hpath⟩ := hannouncing.exists_stored path hpath
    obtain ⟨fragment, hfragment, rfl⟩ := List.mem_map.1 hstored
    exact ⟨fragment, hfragment, ((hannouncing.announces fragment hfragment).2 path).2 hpath⟩
  · rintro hkeeps path ⟨fragment, hfragment, hannounces⟩
    rw [← ((hannouncing.announces fragment hfragment).2 path).1 hannounces]
    exact hannouncing.mentions hkeeps fragment.reference (List.mem_map_of_mem hfragment)

/-- A pet with an owner that is declared elsewhere, and a color out of an enumeration. -/
def petSchema : Json :=
  .object [("properties", .object
    [("owner", .object [("$ref", .string "#/definitions/owner")]),
      ("color", .object [("enum", .array [.string "black", .string "white"])])])]

/-- The type of a pet mentions its owner and its color, and these are announced, nothing else. -/
theorem announces_iff_mentions_petSchema :
    ∃ typing names, ((ofJson petSchema).typing { options := { realEnums := true }, baseName := "Pet" }
        none).Yields [] typing names ∧
      (∃ type ∈ typing.types, ["Definitions", "Owner"] ∈ type.mentions) ∧
      ∀ path, (∃ type ∈ typing.types, path ∈ type.mentions) ↔
        ∃ fragment ∈ typing.emitted.fragments, fragment.Announces "Pet" path := by
  obtain ⟨typing, names, hrun, hmentions⟩ : ∃ typing names, ((ofJson petSchema).typing
      { options := { realEnums := true }, baseName := "Pet" } none).Yields [] typing names ∧
      ∃ type ∈ typing.types, ["Definitions", "Owner"] ∈ type.mentions :=
    ⟨_, _, rfl, _, List.mem_singleton_self _, by decide⟩
  obtain ⟨-, hannounced, hmentioned⟩ := announces_of_mentions_and_conversely hrun
  exact ⟨typing, names, hrun, hmentions, fun path =>
    ⟨hannounced path, hmentioned (keepsItems_of_notMem_keys (by decide)) path⟩⟩

/-- Lists of half an item. -/
def halfList : Json :=
  let half : Json := .number (.double { Double.zero with scale := ⟨1022, by decide⟩ })
  .object [("type", .string "array"), ("items", .object [("$ref", .string "#/a")]),
    ("minItems", half), ("maxItems", half)]

/-- Where arrays have half an item, the type of the item is announced, but not mentioned. -/
theorem announces_without_mention :
    ∃ typing names, ((ofJson halfList).typing { options := {}, baseName := "Main" } none).Yields []
        typing names ∧
      (∃ fragment ∈ typing.emitted.fragments, fragment.Announces "Main" ["A"]) ∧
      ¬ ∃ type ∈ typing.types, ["A"] ∈ type.mentions := by
  have hcomputed : (match ((ofJson halfList).typing
        { options := {}, baseName := "Main" } none).outcome [] with
      | (.ok typing, _) => typing.emitted.fragments.map Fragment.reference == ["#/a"] &&
          typing.emitted.fragments.all Fragment.isAssumed &&
          typing.types.all fun type => !type.mentions.contains ["A"]
      | _ => false) = true := by
    decide +kernel
  split at hcomputed
  · next typing names houtcome =>
    simp only [Bool.and_eq_true, beq_iff_eq, List.all_eq_true] at hcomputed
    obtain ⟨⟨hreferences, hassumed⟩, htypes⟩ := hcomputed
    refine ⟨typing, names, houtcome, ?_, ?_⟩
    · obtain ⟨fragment, hfragment, href⟩ := List.mem_map.1
        (hreferences ▸ List.mem_singleton_self "#/a" : "#/a" ∈ typing.emitted.fragments.map _)
      rw [Fragment.isAssumed_eq_true (hassumed fragment hfragment), href] at hfragment
      exact ⟨_, hfragment, (by decide : declarationPath "Main" "#/a" = ["A"])⟩
    · rintro ⟨type, htype, hpath⟩
      simpa [hpath] using htypes type htype
  · exact Bool.noConfusion hcomputed

end Schema

end Typewright
