import Mathlib.Data.List.Nodup
import Mathlib.Data.List.Perm.Subperm
import Typewright.Naming

/-!
# Numbered names

The numbered names of a base are all different (`numbered_injective`), so among one more of them
than there are names in use one is not in use (`exists_numbered_notMem`), and a search for one ends at
the first of them (`exists_firstNumbered_first`, `exists_fresh_first`).
-/

namespace Typewright.Naming

theorem toDigits_injective {m n : Nat} (h : Nat.toDigits 10 m = Nat.toDigits 10 n) : m = n := by
  rw [← Nat.ofDigitChars_ten_toDigits (n := m), ← Nat.ofDigitChars_ten_toDigits (n := n), h]

/-- The characters after the base of a numbered name. -/
def suffixChars (n : Nat) : List Char :=
  if n = 0 then [] else Nat.toDigits 10 (n + 1)

theorem toList_numbered (base : String) (n : Nat) :
    (numbered base n).toList = base.toList ++ suffixChars n := by
  unfold numbered suffixChars
  split
  · rw [List.append_nil]
  · rw [String.toList_append, String.toList_ofList]

theorem suffixChars_injective {m n : Nat} (h : suffixChars m = suffixChars n) : m = n := by
  have hne : ∀ n, Nat.toDigits 10 n ≠ [] := fun n =>
    List.ne_nil_of_length_pos Nat.length_toDigits_pos
  unfold suffixChars at h
  split at h <;> split at h
  · omega
  · exact absurd h.symm (hne _)
  · exact absurd h (hne _)
  · have := toDigits_injective h
    omega

/-- The numbered names of a base are all different. -/
theorem numbered_injective (base : String) : Function.Injective (numbered base) := by
  intro m n h
  have hchars : base.toList ++ suffixChars m = base.toList ++ suffixChars n := by
    rw [← toList_numbered, ← toList_numbered, h]
  exact suffixChars_injective (List.append_cancel_left hchars)

/-- Among one more numbered names than are in use, one is not in use. -/
theorem exists_numbered_notMem (used : List String) (base : String) :
    ∃ n ≤ used.length, numbered base n ∉ used := by
  -- Else the names in use would hold more distinct names than there are.
  by_contra hall
  push Not at hall
  have hsub : (List.range (used.length + 1)).map (numbered base) ⊆ used := by
    intro name hname
    obtain ⟨n, hn, rfl⟩ := List.mem_map.1 hname
    exact hall n (Nat.lt_succ_iff.1 (List.mem_range.1 hn))
  have hnodup := List.Nodup.map (numbered_injective base) (List.nodup_range (n := used.length + 1))
  have hlength := (hnodup.subperm hsub).length_le
  rw [List.length_map, List.length_range] at hlength
  omega

/-- A search among the numbered names of a base ends at this one: it is the first acceptable one. -/
structure SearchEndsAt (acceptable : String → Bool) (base : String) (n : Nat) : Prop where
  found : acceptable (numbered base n) = true
  passed : ∀ m < n, acceptable (numbered base m) = false

/-- A search ends at one numbered name only. -/
theorem SearchEndsAt.unique {acceptable : String → Bool} {base : String} {m n : Nat}
    (hm : SearchEndsAt acceptable base m) (hn : SearchEndsAt acceptable base n) : m = n := by
  rcases Nat.lt_trichotomy m n with hlt | heq | hlt
  · exact absurd hm.found (by simp [hn.passed m hlt])
  · exact heq
  · exact absurd hn.found (by simp [hm.passed n hlt])

theorem SearchEndsAt.congr {acceptable acceptable' : String → Bool} {base : String} {n : Nat}
    (h : SearchEndsAt acceptable base n) (heq : ∀ name, acceptable name = acceptable' name) :
    SearchEndsAt acceptable' base n :=
  funext heq ▸ h

/-- If every name that is not in use is acceptable, the search ends, and gives the name that it ends
    at. -/
theorem exists_firstNumbered_first {used : List String} {acceptable : String → Bool}
    (h : ∀ name ∉ used, acceptable name = true) (base : String) :
    ∃ n ≤ used.length, firstNumbered base (used.length + 1) acceptable = numbered base n ∧
      SearchEndsAt acceptable base n := by
  unfold firstNumbered
  rw [List.find?_map]
  cases hfind : (List.range (used.length + 1)).find? (acceptable ∘ numbered base) with
  | some n =>
    obtain ⟨hn, hmem, hbefore⟩ := List.find?_range_eq_some.1 hfind
    refine ⟨n, Nat.lt_succ_iff.1 (List.mem_range.1 hmem), rfl, hn, fun m hm => ?_⟩
    simpa using hbefore m hm
  | none =>
    obtain ⟨n, hn, hnotMem⟩ := exists_numbered_notMem used base
    have hrejected := List.find?_eq_none.1 hfind n (List.mem_range.2 (Nat.lt_succ_of_le hn))
    exact absurd (h _ hnotMem) hrejected

/-- The search for a fresh name ends at the first numbered name that is not taken. -/
theorem exists_fresh_first (taken : List String) (base : String) :
    ∃ n ≤ taken.length, fresh taken base = numbered base n ∧ numbered base n ∉ taken ∧
      ∀ m < n, numbered base m ∈ taken := by
  have hnotTaken : ∀ name ∉ taken, (!taken.contains name) = true := by simp
  obtain ⟨n, hn, hfresh, hnew, hbefore⟩ := exists_firstNumbered_first hnotTaken base
  refine ⟨n, hn, hfresh, ?_, fun m hm => ?_⟩
  · simpa using hnew
  · simpa using hbefore m hm

end Typewright.Naming
