import Typewright.Pointer

/-!
# Values inside values

`Json.Inside w v` says that `w` stands somewhere inside `v`.  Whatever an accessor hands out stands
inside the value it was asked of, and a value inside another one is smaller, so statements about
documents are proved by `Json.inside_induction`.  The references of a value are references of every
value around it.
-/

namespace Typewright.Json

/-- The first value stands somewhere inside the second one. -/
inductive Inside : Json → Json → Prop where
  | item {items : List Json} {value : Json} (h : value ∈ items) : Inside value (array items)
  | field {fields : List (String × Json)} {name : String} {value : Json}
      (h : (name, value) ∈ fields) : Inside value (object fields)
  | trans {inner middle outer : Json} (h₁ : Inside inner middle) (h₂ : Inside middle outer) :
      Inside inner outer

namespace Inside

/-- What stands inside a value is smaller, so recursion over what is inside comes to an end. -/
theorem sizeOf_lt {inner outer : Json} (h : Inside inner outer) : sizeOf inner < sizeOf outer := by
  induction h with
  | item h =>
    have := List.sizeOf_lt_of_mem h
    simp only [array.sizeOf_spec]
    omega
  | @field fields name value h =>
    have := List.sizeOf_lt_of_mem h
    simp only [object.sizeOf_spec, Prod.mk.sizeOf_spec] at this ⊢
    omega
  | trans _ _ ih₁ ih₂ => omega

end Inside

/-- What holds of a value whenever it holds of all values inside it holds of every value. -/
theorem inside_induction {P : Json → Prop}
    (step : ∀ value, (∀ inner, Inside inner value → P inner) → P value) (value : Json) : P value := by
  induction h : sizeOf value using Nat.strongRecOn generalizing value with
  | _ n ih =>
    subst h
    exact step value fun inner hinner => ih _ hinner.sizeOf_lt inner rfl

/-! ### What the accessors hand out -/

/-- A value that is looked up is one of the values. -/
theorem mem_of_lookup {α : Type} {fields : List (String × α)} {name : String} {value : α}
    (h : fields.lookup name = some value) : (name, value) ∈ fields := by
  obtain ⟨before, after, rfl, _⟩ := List.lookup_eq_some_iff.1 h
  simp

theorem lookup_cons_eq {α : Type} (key name : String) (value : α) (rest : List (String × α)) :
    ((name, value) :: rest).lookup key = if name = key then some value else rest.lookup key := by
  by_cases h : name = key
  · simp [h]
  · have h' : (key == name) = false := beq_eq_false_iff_ne.2 (Ne.symm h)
    rw [List.lookup_cons, h', if_neg h]

theorem asArray?_eq_some {value : Json} {items : List Json} :
    value.asArray? = some items ↔ value = array items := by
  cases value <;> simp [asArray?]

theorem asObject?_eq_some {value : Json} {fields : List (String × Json)} :
    value.asObject? = some fields ↔ value = object fields := by
  cases value <;> simp [asObject?]

theorem asString?_eq_some {value : Json} {text : String} :
    value.asString? = some text ↔ value = string text := by
  cases value <;> simp [asString?]

/-- Only objects have fields, and of several with one name the first counts. -/
theorem field?_eq_some {value inner : Json} {name : String} :
    value.field? name = some inner ↔
      ∃ fields, value = object fields ∧ fields.lookup name = some inner := by
  cases value <;> simp [field?, asObject?]

theorem items?_eq_some {value : Json} {name : String} {items : List Json} :
    value.items? name = some items ↔ value.field? name = some (array items) := by
  simp [items?, Option.bind_eq_some_iff, asArray?_eq_some]

theorem entries?_eq_some {value : Json} {name : String} {fields : List (String × Json)} :
    value.entries? name = some fields ↔ value.field? name = some (object fields) := by
  simp [entries?, Option.bind_eq_some_iff, asObject?_eq_some]

theorem string?_eq_some {value : Json} {name text : String} :
    value.string? name = some text ↔ value.field? name = some (string text) := by
  simp [string?, Option.bind_eq_some_iff, asString?_eq_some]

/-- A value is marked with a keyword when the keyword is `true`. -/
theorem flag_eq_true_iff {value : Json} {name : String} :
    value.flag name = true ↔ value.field? name = some (bool true) := by
  unfold flag
  cases value.field? name with
  | none => simp
  | some inner => cases inner <;> simp [asBool?]

/-- A field of a value stands inside it. -/
theorem inside_of_field? {value inner : Json} {name : String}
    (h : value.field? name = some inner) : Inside inner value := by
  obtain ⟨fields, rfl, hlookup⟩ := field?_eq_some.1 h
  exact .field (mem_of_lookup hlookup)

/-- The items of an array in a field stand inside the value. -/
theorem inside_of_mem_items? {value inner : Json} {name : String} {items : List Json}
    (h : value.items? name = some items) (hmem : inner ∈ items) : Inside inner value :=
  .trans (.item hmem) (inside_of_field? (items?_eq_some.1 h))

/-- The entries of an object in a field stand inside the value. -/
theorem inside_of_mem_entries? {value inner : Json} {name key : String}
    {fields : List (String × Json)} (h : value.entries? name = some fields)
    (hmem : (key, inner) ∈ fields) : Inside inner value :=
  .trans (.field hmem) (inside_of_field? (entries?_eq_some.1 h))

theorem exists_entries?_of_mem_getD {value : Json} {name : String} {field : String × Json}
    (h : field ∈ (value.entries? name).getD []) :
    ∃ entries, value.entries? name = some entries ∧ field ∈ entries := by
  cases hentries : value.entries? name with
  | none => simp [hentries] at h
  | some entries => exact ⟨entries, rfl, by simpa [hentries] using h⟩

/-! ### Keys -/

mutual

/-- The keys of all objects in a value. -/
def keys : Json → List String
  | array items => keysOfItems items
  | object fields => keysOfFields fields
  | _ => []

/-- The keys of all objects in the items of an array. -/
def keysOfItems : List Json → List String
  | [] => []
  | item :: rest => keys item ++ keysOfItems rest

/-- The keys of fields, and of all objects in them. -/
def keysOfFields : List (String × Json) → List String
  | [] => []
  | (name, value) :: rest => name :: keys value ++ keysOfFields rest

end

/-- The keys of a list of values, as a `flatMap`. -/
theorem keysOfItems_eq (items : List Json) : keysOfItems items = items.flatMap keys := by
  induction items with
  | nil => rfl
  | cons item rest ih => rw [keysOfItems, ih, List.flatMap_cons]

theorem keysOfFields_eq (fields : List (String × Json)) :
    keysOfFields fields = fields.flatMap fun field => field.1 :: keys field.2 := by
  induction fields with
  | nil => rfl
  | cons field rest ih => rw [keysOfFields, ih, List.flatMap_cons]

/-- What stands inside a value has no keys but those of the value. -/
theorem keys_subset_of_inside {inner outer : Json} (h : Inside inner outer) :
    keys inner ⊆ keys outer := by
  induction h with
  | item h =>
    intro key hkey
    rw [keys, keysOfItems_eq]
    exact List.mem_flatMap.2 ⟨_, h, hkey⟩
  | field h =>
    intro key hkey
    rw [keys, keysOfFields_eq]
    exact List.mem_flatMap.2 ⟨_, h, List.mem_cons_of_mem _ hkey⟩
  | trans _ _ ih₁ ih₂ => exact List.Subset.trans ih₁ ih₂

theorem mem_keys_of_inside {fields : List (String × Json)} {name : String} {value document : Json}
    (h : Inside (object fields) document) (hmem : (name, value) ∈ fields) : name ∈ keys document := by
  refine keys_subset_of_inside h ?_
  rw [keys, keysOfFields_eq]
  exact List.mem_flatMap.2 ⟨_, hmem, List.mem_cons_self⟩

end Typewright.Json

namespace Typewright.Pointer

open Json

/-! ### References -/

theorem references_array (items : List Json) :
    references (array items) = items.flatMap references := by
  rw [references]
  induction items with
  | nil => rfl
  | cons item rest ih => rw [referencesOfItems, ih, List.flatMap_cons]

/-- A reference object counts with its own reference, and then with those inside its fields. -/
theorem references_object (fields : List (String × Json)) :
    references (object fields) =
      (target? (object fields)).toList ++ fields.flatMap fun field => references field.2 := by
  rw [references]
  congr 1
  induction fields with
  | nil => rfl
  | cons head rest ih =>
    obtain ⟨name, value⟩ := head
    rw [referencesOfFields, ih, List.flatMap_cons]

/-- The reference of a reference object is among its references. -/
theorem mem_references_of_target? {value : Json} {reference : String}
    (h : target? value = some reference) : reference ∈ references value := by
  obtain ⟨fields, rfl, -⟩ := field?_eq_some.1 (string?_eq_some.1 h)
  rw [references_object, h]
  simp

/-- A value has the references of all values inside it. -/
theorem references_subset_of_inside {inner outer : Json} (h : Inside inner outer) :
    references inner ⊆ references outer := by
  induction h with
  | item h =>
    rw [references_array]
    exact fun _ hmem => List.mem_flatMap.2 ⟨_, h, hmem⟩
  | field h =>
    rw [references_object]
    exact fun _ hmem => List.mem_append_right _ (List.mem_flatMap.2 ⟨_, h, hmem⟩)
  | trans _ _ ih₁ ih₂ => exact fun _ hmem => ih₂ (ih₁ hmem)

/-! ### Resolution -/

/-- A step of a walk goes to a value inside. -/
theorem inside_of_step? {value next : Json} {segment : String}
    (h : step? value segment = some next) : Inside next value := by
  unfold step? at h
  split at h
  · exact .field (mem_of_lookup h)
  · obtain ⟨index, -, hitem⟩ := Option.bind_eq_some_iff.1 h
    exact .item (List.mem_of_getElem? hitem)
  · simp at h

/-- A walk ends where it began or inside. -/
theorem eq_or_inside_of_walk {path segments : List String} {value target : Json}
    (h : walk path value segments = .ok target) : target = value ∨ Inside target value := by
  induction segments generalizing value with
  | nil =>
    rw [walk, Except.ok.injEq] at h
    exact .inl h.symm
  | cons segment rest ih =>
    rw [walk] at h
    split at h
    · next next hstep =>
      -- After a first step the walk is inside, and it never leaves.
      refine .inr ?_
      rcases ih h with rfl | hinside
      · exact inside_of_step? hstep
      · exact hinside.trans (inside_of_step? hstep)
    · simp at h

/-- What a path resolves to is the document or stands inside it. -/
theorem eq_or_inside_of_resolve {document target : Json} {path : List String}
    (h : resolve document path = .ok target) : target = document ∨ Inside target document := by
  unfold resolve at h
  split at h
  · simp at h
  · exact eq_or_inside_of_walk h

/-- What a path resolves to has no references but those of the document. -/
theorem references_subset_of_resolve {document target : Json} {path : List String}
    (h : resolve document path = .ok target) : references target ⊆ references document := by
  rcases eq_or_inside_of_resolve h with rfl | hinside
  · exact fun _ hmem => hmem
  · exact references_subset_of_inside hinside

end Typewright.Pointer
