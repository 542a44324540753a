import Mathlib.Data.List.Nodup
import Typewright.Proofs.Json.Inside
import Typewright.Proofs.Pointer.Segments
import Typewright.Proofs.Text.Natural

/-!
# Where values stand in a document

`Pointer.Placed document value location` says that the location addresses the value, and that the
values inside it can be addressed too.  A step down to a field or to an item places the inner value at
the child location (`Placed.field`, `Placed.item`), so a location that grows along a traversal stays in
step with it.
-/

namespace Typewright

namespace Json

/-- The value is as a document has it: the keys of each object are distinct, and the items of each
    array can be counted in 64 bits. -/
inductive WellFormed : Json → Prop where
  | null : WellFormed .null
  | bool (value : Bool) : WellFormed (.bool value)
  | number (value : Number) : WellFormed (.number value)
  | string (value : String) : WellFormed (.string value)
  | array {items : List Json} (length_lt : items.length < 0x10000000000000000)
      (of_mem : ∀ item ∈ items, WellFormed item) : WellFormed (.array items)
  | object {fields : List (String × Json)} (nodup : (fields.map Prod.fst).Nodup)
      (of_mem : ∀ field ∈ fields, WellFormed field.2) : WellFormed (.object fields)

@[simp] theorem wellFormed_array_iff {items : List Json} :
    (array items).WellFormed ↔
      items.length < 0x10000000000000000 ∧ ∀ item ∈ items, item.WellFormed := by
  refine ⟨fun h => ?_, fun h => .array h.1 h.2⟩
  cases h with
  | array hlength hitems => exact ⟨hlength, hitems⟩

@[simp] theorem wellFormed_object_iff {fields : List (String × Json)} :
    (object fields).WellFormed ↔
      (fields.map Prod.fst).Nodup ∧ ∀ field ∈ fields, field.2.WellFormed := by
  refine ⟨fun h => ?_, fun h => .object h.1 h.2⟩
  cases h with
  | object hnodup hfields => exact ⟨hnodup, hfields⟩

attribute [simp] WellFormed.null WellFormed.bool WellFormed.number WellFormed.string

/-- What stands inside a document is as well formed as the document. -/
theorem WellFormed.of_inside {inner outer : Json} (h : outer.WellFormed)
    (hinside : inner.Inside outer) : inner.WellFormed := by
  induction hinside with
  | item hmem => exact (wellFormed_array_iff.1 h).2 _ hmem
  | field hmem => exact (wellFormed_object_iff.1 h).2 _ hmem
  | trans _ _ ih₁ ih₂ => exact ih₁ (ih₂ h)

/-- Every value inside can be addressed: no key is empty, since empty segments do not count. -/
structure Addressable (value : Json) : Prop where
  wellFormed : value.WellFormed
  keys : "" ∉ value.keys

/-- What stands inside a document has no empty keys either. -/
theorem Addressable.of_inside {inner outer : Json} (h : outer.Addressable)
    (hinside : inner.Inside outer) : inner.Addressable :=
  ⟨h.wellFormed.of_inside hinside, fun hempty => h.keys (keys_subset_of_inside hinside hempty)⟩

/-- An object is addressable by its own keys and by those of its values. -/
theorem addressable_object_iff {fields : List (String × Json)} :
    (object fields).Addressable ↔
      (fields.map Prod.fst).Nodup ∧ ∀ field ∈ fields, field.1 ≠ "" ∧ field.2.Addressable := by
  constructor
  · intro h
    refine ⟨(wellFormed_object_iff.1 h.wellFormed).1, fun field hfield => ⟨fun hempty => ?_, ?_⟩⟩
    · refine h.keys ?_
      rw [keys, keysOfFields_eq]
      exact List.mem_flatMap.2 ⟨field, hfield, hempty ▸ List.mem_cons_self⟩
    · exact h.of_inside (.field hfield)
  · rintro ⟨hnodup, hfields⟩
    have hwellFormed := fun field hfield => (hfields field hfield).2.wellFormed
    refine ⟨wellFormed_object_iff.2 ⟨hnodup, hwellFormed⟩, ?_⟩
    rw [keys, keysOfFields_eq, List.mem_flatMap]
    rintro ⟨field, hfield, hempty⟩
    rcases List.mem_cons.1 hempty with hempty | hempty
    · exact (hfields field hfield).1 hempty.symm
    · exact (hfields field hfield).2.keys hempty

/-- Where no name comes twice, every entry is the one that is found. -/
theorem lookup_of_mem {fields : List (String × Json)} (hnodup : (fields.map Prod.fst).Nodup)
    {name : String} {value : Json} (h : (name, value) ∈ fields) : fields.lookup name = some value := by
  induction fields with
  | nil => exact absurd h List.not_mem_nil
  | cons field fields ih =>
    obtain ⟨key, first⟩ := field
    obtain ⟨hkey, hnodup⟩ := List.nodup_cons.1 hnodup
    rw [lookup_cons_eq]
    rcases List.mem_cons.1 h with heq | h
    -- A later entry of the same name would repeat it.
    · obtain ⟨rfl, rfl⟩ := Prod.mk.inj heq
      rw [if_pos rfl]
    · have hne : key ≠ name := by
        rintro rfl
        exact hkey (List.mem_map.2 ⟨_, h, rfl⟩)
      rw [if_neg hne, ih hnodup h]

end Json

namespace Pointer

variable {document value inner : Json} {location : String}

/-! ### Walks -/

/-- The rest of a walk goes on from where the first part arrived. -/
theorem walk_append {path path' segments more : List String} {value target : Json}
    (h : walk path value segments = .ok target) :
    walk path' value (segments ++ more) = walk path' target more := by
  induction segments generalizing value with
  | nil =>
    rw [walk, Except.ok.injEq] at h
    rw [List.nil_append, h]
  | cons segment rest ih =>
    rw [walk] at h
    rw [List.cons_append, walk]
    split at h
    · exact ih h
    · simp at h

/-- What a longer path resolves to is one step further. -/
theorem resolve_append_singleton {path : List String} {segment : String}
    (h : resolve document path = .ok value) (hstep : step? value segment = some inner) :
    resolve document (path ++ [segment]) = .ok inner := by
  unfold resolve at h ⊢
  split at h
  · simp at h
  · -- The path so far is only kept for the text of a failure, so the longer walk goes on from it.
    rw [walk_append h, walk, hstep]
    rfl

/-- A step into an object goes to a field. -/
theorem step?_of_field? {name : String} (h : value.field? name = some inner) :
    step? value name = some inner := by
  obtain ⟨fields, rfl, hlookup⟩ := Json.field?_eq_some.1 h
  exact hlookup

/-- A step into an array goes to an item, by its index in decimal digits. -/
theorem step?_of_getElem? {items : List Json} (hlength : items.length < 0x10000000000000000)
    {index : Nat} (h : items[index]? = some inner) :
    step? (.array items) (toString index) = some inner := by
  obtain ⟨hindex, -⟩ := List.getElem?_eq_some_iff.1 h
  rw [step?, Text.word?_toString (Nat.lt_trans hindex hlength)]
  exact h

/-! ### Places -/

/-- The location addresses the value, and the values inside it can be addressed. -/
structure Placed (document value : Json) (location : String) : Prop where
  resolve_eq : resolve document (split location) = .ok value
  addressable : value.Addressable

theorem placed_of_resolve {reference : String} (h : document.Addressable)
    (hresolve : resolve document (split reference) = .ok value) : Placed document value reference := by
  refine ⟨hresolve, ?_⟩
  rcases eq_or_inside_of_resolve hresolve with rfl | hinside
  · exact h
  · exact h.of_inside hinside

theorem placed_root (h : document.Addressable) (hnull : document ≠ .null) :
    Placed document document root := by
  refine ⟨?_, h⟩
  have hsplit : split root = [] := by decide
  unfold resolve
  split
  · exact absurd rfl hnull
  · rw [hsplit, walk]

/-- References with the same segments address the same value. -/
theorem Placed.congr {location' : String} (h : Placed document value location)
    (hsplit : split location' = split location) : Placed document value location' :=
  ⟨hsplit ▸ h.resolve_eq, h.addressable⟩

/-- A step from a place leads to the place below it. -/
theorem Placed.step {segment : String} (h : Placed document value location)
    (hstep : step? value segment = some inner) (hsegment : segment ≠ "") :
    Placed document inner (child location segment) := by
  refine ⟨?_, h.addressable.of_inside (inside_of_step? hstep)⟩
  rw [split_child location hsegment]
  exact resolve_append_singleton h.resolve_eq hstep

/-- A field stands at the child of its name. -/
theorem Placed.field {name : String} (h : Placed document value location)
    (hfield : value.field? name = some inner) : Placed document inner (child location name) := by
  refine h.step (step?_of_field? hfield) ?_
  obtain ⟨fields, rfl, hlookup⟩ := Json.field?_eq_some.1 hfield
  exact ((Json.addressable_object_iff.1 h.addressable).2 _ (Json.mem_of_lookup hlookup)).1

theorem Placed.entry {fields : List (String × Json)} {name : String}
    (h : Placed document (.object fields) location) (hmem : (name, inner) ∈ fields) :
    Placed document inner (child location name) := by
  have hnodup := (Json.addressable_object_iff.1 h.addressable).1
  exact h.field (Json.lookup_of_mem hnodup hmem)

/-- An item stands at the child of its index. -/
theorem Placed.item {items : List Json} {index : Nat} (h : Placed document (.array items) location)
    (hitem : items[index]? = some inner) : Placed document inner (child location (toString index)) := by
  have hlength := (Json.wellFormed_array_iff.1 h.addressable.wellFormed).1
  exact h.step (step?_of_getElem? hlength hitem) (Text.toString_ne_empty index)

theorem Placed.entries {name : String} {fields : List (String × Json)}
    (h : Placed document value location) (hentries : value.entries? name = some fields) :
    Placed document (.object fields) (child location name) :=
  h.field (Json.entries?_eq_some.1 hentries)

theorem Placed.items {name : String} {items : List Json} (h : Placed document value location)
    (hitems : value.items? name = some items) : Placed document (.array items) (child location name) :=
  h.field (Json.items?_eq_some.1 hitems)

end Pointer

end Typewright
