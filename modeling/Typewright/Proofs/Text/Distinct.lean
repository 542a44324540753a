import Mathlib.Data.List.Basic
import Typewright.Text.Distinct

/-!
# What lists without repetitions hold

Nothing is added, and of every element that is dropped an equal one is kept.  Where equality is an
equivalence, repetitions may be dropped group by group first (`Text.distinct_flatMap_distinct`).
-/

namespace Typewright.Text

variable {α β : Type}

section BEq

variable [BEq α]

theorem mem_insertNew_iff {xs : List α} {x y : α} :
    y ∈ insertNew xs x ↔ y ∈ xs ∨ (xs.contains x = false ∧ y = x) := by
  unfold insertNew
  split <;> simp_all

theorem insertAllNew_cons (xs ys : List α) (y : α) :
    insertAllNew xs (y :: ys) = insertAllNew (insertNew xs y) ys := rfl

theorem mem_insertAllNew_of_mem {xs ys : List α} {x : α} (h : x ∈ xs) : x ∈ insertAllNew xs ys := by
  unfold insertAllNew
  induction ys generalizing xs with
  | nil => exact h
  | cons y ys ih => exact ih (mem_insertNew_iff.2 (.inl h))

theorem mem_or_mem_of_mem_insertAllNew {xs ys : List α} {x : α} (h : x ∈ insertAllNew xs ys) :
    x ∈ xs ∨ x ∈ ys := by
  unfold insertAllNew at h
  induction ys generalizing xs with
  | nil => exact .inl h
  | cons y ys ih =>
    rcases ih h with h | h
    · rcases mem_insertNew_iff.1 h with h | ⟨-, rfl⟩
      · exact .inl h
      · exact .inr List.mem_cons_self
    · exact .inr (List.mem_cons_of_mem _ h)

/-- An element that is dropped has an equal one that is kept. -/
theorem exists_mem_insertAllNew_of_mem {xs ys : List α} {y : α} (h : y ∈ ys) :
    ∃ x ∈ insertAllNew xs ys, x = y ∨ (y == x) = true := by
  induction ys generalizing xs with
  | nil => simp at h
  | cons head ys ih =>
    rw [insertAllNew_cons]
    rcases List.mem_cons.1 h with rfl | h
    · by_cases hcontains : xs.contains y = true
      · obtain ⟨x, hx, hbeq⟩ := List.contains_iff_exists_mem_beq.1 hcontains
        exact ⟨x, mem_insertAllNew_of_mem (mem_insertNew_iff.2 (.inl hx)), .inr hbeq⟩
      · have hy : y ∈ insertNew xs y := mem_insertNew_iff.2 (.inr ⟨by simpa using hcontains, rfl⟩)
        exact ⟨y, mem_insertAllNew_of_mem hy, .inl rfl⟩
    · exact ih h

theorem mem_of_mem_distinct {xs : List α} {x : α} (h : x ∈ distinct xs) : x ∈ xs := by
  simpa using mem_or_mem_of_mem_insertAllNew h

theorem exists_mem_distinct_of_mem {xs : List α} {x : α} (h : x ∈ xs) :
    ∃ y ∈ distinct xs, y = x ∨ (x == y) = true :=
  exists_mem_insertAllNew_of_mem h

/-- What equal elements have in common is had by an element that is kept if it is had by any. -/
theorem exists_mem_distinct_iff {p : α → Prop} {xs : List α}
    (hp : ∀ x y, (x == y) = true → (p x ↔ p y)) : (∃ x ∈ distinct xs, p x) ↔ ∃ x ∈ xs, p x := by
  constructor
  · rintro ⟨x, hx, hpx⟩
    exact ⟨x, mem_of_mem_distinct hx, hpx⟩
  · rintro ⟨x, hx, hpx⟩
    obtain ⟨y, hy, rfl | hbeq⟩ := exists_mem_distinct_of_mem hx
    · exact ⟨y, hy, hpx⟩
    · exact ⟨y, hy, (hp x y hbeq).1 hpx⟩

theorem distinct_ne_nil {xs : List α} (h : xs ≠ []) : distinct xs ≠ [] := by
  obtain ⟨x, hx⟩ := List.exists_mem_of_ne_nil xs h
  obtain ⟨y, hy, -⟩ := exists_mem_distinct_of_mem hx
  exact List.ne_nil_of_mem hy

theorem pairwise_insertNew {xs : List α} (h : xs.Pairwise fun x y => (y == x) = false) (x : α) :
    (insertNew xs x).Pairwise fun x y => (y == x) = false := by
  unfold insertNew
  split
  · exact h
  · next hnew =>
    refine List.pairwise_append.2 ⟨h, List.pairwise_singleton _ _, fun y hy z hz => ?_⟩
    rw [List.mem_singleton.1 hz, ← Bool.not_eq_true]
    exact fun hbeq => hnew (List.contains_iff_exists_mem_beq.2 ⟨y, hy, hbeq⟩)

/-- No element that is kept equals an earlier one. -/
theorem pairwise_distinct (xs : List α) : (distinct xs).Pairwise fun x y => (y == x) = false := by
  have hinsert : ∀ ys, ys.Pairwise (fun x y => (y == x) = false) →
      (insertAllNew ys xs).Pairwise fun x y => (y == x) = false := by
    induction xs with
    | nil => exact fun _ h => h
    | cons x xs ih => exact fun ys h => ih _ (pairwise_insertNew h x)
  exact hinsert [] .nil

end BEq

theorem insertAllNew_append [BEq α] (xs ys zs : List α) :
    insertAllNew xs (ys ++ zs) = insertAllNew (insertAllNew xs ys) zs :=
  List.foldl_append

theorem distinct_concat [BEq α] (xs : List α) (x : α) :
    distinct (xs ++ [x]) = insertNew (distinct xs) x :=
  insertAllNew_append [] xs [x]

/-! ### Lists put together -/

section Equivalence

variable [BEq α] [EquivBEq α]

/-- What equals an element that is inserted equals one that is kept. -/
theorem contains_insertAllNew_right {xs ys : List α} {z : α} (h : ys.contains z = true) :
    (insertAllNew xs ys).contains z = true := by
  obtain ⟨y, hy, hzy⟩ := List.contains_iff_exists_mem_beq.1 h
  obtain ⟨x, hx, rfl | hyx⟩ : ∃ x ∈ insertAllNew xs ys, x = y ∨ (y == x) = true :=
    exists_mem_insertAllNew_of_mem hy
  · exact List.contains_iff_exists_mem_beq.2 ⟨x, hx, hzy⟩
  · exact List.contains_iff_exists_mem_beq.2 ⟨x, hx, BEq.trans hzy hyx⟩

theorem insertAllNew_insertNew (xs ys : List α) (z : α) :
    insertAllNew xs (insertNew ys z) = insertNew (insertAllNew xs ys) z := by
  by_cases h : ys.contains z = true
  · -- An equal element is in both lists already.
    rw [insertNew, insertNew, if_pos h, if_pos (contains_insertAllNew_right h)]
  · rw [insertNew, if_neg h, insertAllNew_append]
    rfl

/-- Repetitions may be dropped before the elements are inserted. -/
theorem insertAllNew_insertAllNew (xs ys zs : List α) :
    insertAllNew xs (insertAllNew ys zs) = insertAllNew (insertAllNew xs ys) zs := by
  induction zs generalizing ys with
  | nil => rfl
  | cons z zs ih => rw [insertAllNew_cons, ih, insertAllNew_insertNew, ← insertAllNew_cons]

/-- Lists without repetitions are put together one after the other. -/
theorem distinct_append (xs ys : List α) :
    distinct (xs ++ ys) = insertAllNew (distinct xs) (distinct ys) := by
  unfold distinct
  rw [insertAllNew_append, insertAllNew_insertAllNew]
  rfl

/-- Repetitions within the groups may be dropped before those across groups. -/
theorem distinct_flatMap_distinct {γ : Type} (members : γ → List α) (groups : List γ) :
    (distinct (groups.flatMap fun group => distinct (members group))) =
      distinct (groups.flatMap members) := by
  have hinsert : ∀ xs, insertAllNew xs (groups.flatMap fun group => distinct (members group)) =
      insertAllNew xs (groups.flatMap members) := by
    induction groups with
    | nil => exact fun _ => rfl
    | cons group groups ih =>
      intro xs
      have hgroup : insertAllNew xs (distinct (members group)) = insertAllNew xs (members group) :=
        insertAllNew_insertAllNew xs [] (members group)
      rw [List.flatMap_cons, List.flatMap_cons, insertAllNew_append, insertAllNew_append, hgroup, ih]
  exact hinsert []

end Equivalence

/-- Nothing that is inserted gets lost. -/
theorem mem_insertAllNew_right [BEq α] [LawfulBEq α] {xs ys : List α} {y : α} (h : y ∈ ys) :
    y ∈ insertAllNew xs ys :=
  List.contains_iff_mem.1 (contains_insertAllNew_right (List.contains_iff_mem.2 h))

theorem nodup_insertNew [BEq α] [LawfulBEq α] {xs : List α} (h : xs.Nodup) (x : α) :
    (insertNew xs x).Nodup := by
  unfold insertNew
  split
  · exact h
  · next hnew =>
    rw [List.contains_iff_mem] at hnew
    refine List.nodup_append.2 ⟨h, by simp, fun y hy z hz => ?_⟩
    rw [List.mem_singleton.1 hz]
    exact fun heq => hnew (heq ▸ hy)

theorem nodup_insertAllNew [BEq α] [LawfulBEq α] {xs : List α} (h : xs.Nodup) (ys : List α) :
    (insertAllNew xs ys).Nodup := by
  induction ys generalizing xs with
  | nil => exact h
  | cons y ys ih => exact ih (nodup_insertNew h y)

/-- Nothing is kept twice. -/
theorem nodup_distinct [BEq α] [LawfulBEq α] (xs : List α) : (distinct xs).Nodup :=
  nodup_insertAllNew List.nodup_nil xs

theorem mem_distinct_iff [BEq α] [LawfulBEq α] {xs : List α} {x : α} : x ∈ distinct xs ↔ x ∈ xs :=
  ⟨mem_of_mem_distinct, mem_insertAllNew_right⟩

/-- Where nothing that is made of the elements is repeated, what is made tells the element. -/
theorem eq_of_nodup_filterMap {make : α → Option β} {xs : List α} (h : (xs.filterMap make).Nodup)
    {x y : α} {z : β} (hx : x ∈ xs) (hy : y ∈ xs) (hxz : make x = some z) (hyz : make y = some z) :
    x = y := by
  induction xs with
  | nil => exact absurd hx List.not_mem_nil
  | cons first rest ih =>
    have hfirst {other : α} (hother : other ∈ rest) (hotherz : make other = some z) :
        make first ≠ some z := by
      intro hfirstz
      rw [List.filterMap_cons_some hfirstz, List.nodup_cons] at h
      exact h.1 (List.mem_filterMap.2 ⟨other, hother, hotherz⟩)
    rcases List.mem_cons.1 hx with rfl | hxrest
    · rcases List.mem_cons.1 hy with rfl | hyrest
      · rfl
      · exact absurd hxz (hfirst hyrest hyz)
    · rcases List.mem_cons.1 hy with rfl | hyrest
      · exact absurd hyz (hfirst hxrest hxz)
      · exact ih (h.sublist ((List.sublist_cons_self first rest).filterMap make)) hxrest hyrest

/-! ### Keys -/

variable [BEq β] {key : α → β}

theorem exists_mem_distinctByFrom [LawfulBEq β] {seen : List β} {xs : List α} {x : α} (h : x ∈ xs)
    (hseen : key x ∉ seen) : ∃ y ∈ distinctByFrom key seen xs, key y = key x := by
  fun_induction distinctByFrom key seen xs with
  | case1 => simp at h
  | case2 seen y rest hy ih =>
    rcases List.mem_cons.1 h with rfl | h
    · exact absurd (by simpa using hy) hseen
    · exact ih h hseen
  | case3 seen y rest hy ih =>
    by_cases hkey : key y = key x
    · exact ⟨y, List.mem_cons_self, hkey⟩
    · rcases List.mem_cons.1 h with rfl | h
      · exact absurd rfl hkey
      · obtain ⟨z, hz, hzkey⟩ := ih h (by simpa [Ne.symm hkey] using hseen)
        exact ⟨z, List.mem_cons_of_mem _ hz, hzkey⟩

/-- Where the key tells the element apart, the elements that are kept are the different ones, in the
    order in which they first occur. -/
theorem distinctByFrom_map {γ : Type} [LawfulBEq β] [BEq γ] [LawfulBEq γ] {f : γ → α}
    (hkey : Function.Injective (key ∘ f)) (seen xs : List γ) :
    distinctByFrom key (seen.map (key ∘ f)) (xs.map f) =
      ((xs.filter (!seen.contains ·)).eraseDups).map f := by
  induction xs generalizing seen with
  | nil => simp [distinctByFrom]
  | cons x xs ih =>
    have hseen : (seen.map (key ∘ f)).contains (key (f x)) = seen.contains x := by
      rw [Bool.eq_iff_iff, List.contains_iff_mem, List.contains_iff_mem]
      exact List.mem_map_of_injective hkey
    rw [List.map_cons, distinctByFrom, hseen]
    by_cases hx : x ∈ seen
    · rw [if_pos (List.contains_iff_mem.2 hx), ih, List.filter_cons_of_neg (by simpa using hx)]
    · -- What comes after is kept unless it was seen before or is this element.
      have hrest : xs.filter (!(x :: seen).contains ·) =
          (xs.filter (!seen.contains ·)).filter (!· == x) := by
        rw [List.filter_filter]
        refine List.filter_congr fun y _ => ?_
        rw [List.contains_cons, Bool.not_or]
      rw [if_neg (hx ∘ List.contains_iff_mem.1), List.filter_cons_of_pos (by simpa using hx),
        List.eraseDups_cons, List.map_cons, ← hrest, ← ih]
      rfl

theorem distinctBy_map {γ : Type} [LawfulBEq β] [BEq γ] [LawfulBEq γ] {f : γ → α}
    (hkey : Function.Injective (key ∘ f)) (xs : List γ) :
    distinctBy key (xs.map f) = xs.eraseDups.map f := by
  have hall : xs.filter (!([] : List γ).contains ·) = xs := List.filter_eq_self.2 fun _ _ => rfl
  exact (distinctByFrom_map hkey [] xs).trans (by rw [hall])

/-- Of the elements with one key, one is kept. -/
theorem exists_mem_distinctBy [LawfulBEq β] {xs : List α} {x : α} (h : x ∈ xs) :
    ∃ y ∈ distinctBy key xs, key y = key x :=
  exists_mem_distinctByFrom h (by simp)

end Typewright.Text
