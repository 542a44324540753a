import Mathlib.Data.List.Basic
import Mathlib.Data.List.Infix

/-!
# Texts that can be taken apart

Two ways in which a longer text gives its beginning away.  A word is cut off where its characters
stop (`word_append_injective`), and a joined list is taken apart piece by piece, if every piece can be
told from its beginning and what follows the list does not look like a separator
(`joined_append_injective`).
-/

namespace Typewright.Text

/-- A word that is followed by a character of another class can be cut off. -/
theorem word_append_injective {p : Char → Bool} {word word' rest rest' : List Char}
    (hword : ∀ c ∈ word, p c = true) (hword' : ∀ c ∈ word', p c = true)
    (hrest : ∀ c ∈ rest.head?, p c = false) (hrest' : ∀ c ∈ rest'.head?, p c = false)
    (h : word ++ rest = word' ++ rest') : word = word' ∧ rest = rest' := by
  have htake {word rest : List Char} (hword : ∀ c ∈ word, p c = true)
      (hrest : ∀ c ∈ rest.head?, p c = false) : (word ++ rest).takeWhile p = word := by
    rw [List.takeWhile_append_of_pos hword]
    cases rest with
    | nil => simp
    | cons c rest =>
      rw [List.takeWhile_cons_of_neg (by rw [hrest c rfl]; exact Bool.false_ne_true), List.append_nil]
  have heq : word = word' := by
    rw [← htake hword hrest, h, htake hword' hrest']
  subst heq
  exact ⟨rfl, List.append_cancel_left h⟩

section Joined

variable {α β : Type} {separator rest rest' : List Char}

/-- What follows the first piece of a joined list. -/
def tailChars (separator : List Char) : List (List Char) → List Char
  | [] => []
  | pieces => separator ++ separator.intercalate pieces

theorem intercalate_cons_eq (separator piece : List Char) (pieces : List (List Char)) :
    separator.intercalate (piece :: pieces) = piece ++ tailChars separator pieces := by
  cases pieces with
  | nil => simp [tailChars]
  | cons next pieces => rw [List.intercalate_cons_cons, tailChars, List.append_assoc]; simp

theorem intercalate_concat {pieces : List (List Char)} (h : pieces ≠ []) (last : List Char) :
    separator.intercalate (pieces ++ [last]) = separator.intercalate pieces ++ (separator ++ last) := by
  induction pieces with
  | nil => exact absurd rfl h
  | cons piece pieces ih =>
    cases pieces with
    | nil => simp
    | cons next pieces =>
      rw [List.cons_append, intercalate_cons_eq, intercalate_cons_eq, List.append_assoc]
      rw [List.cons_append, tailChars, tailChars, ← List.cons_append, ih (List.cons_ne_nil _ _)]
      · simp
      · simp
      · simp

/-- Joined lists with equal texts have pieces that look the same.  A piece is told from its beginning
    where something `Open` follows it: a separator, or what `Ends` the list. -/
theorem joined_append_injective (text : α → List Char) (view : α → β) (Open Ends : List Char → Prop)
    (hseparator : ∀ rest, Open (separator ++ rest)) (hends : ∀ rest, Ends rest → Open rest)
    (hclosed : ∀ rest rest', Ends rest → rest ≠ separator ++ rest') {xs ys : List α}
    (hpiece : ∀ x ∈ xs, ∀ y ∈ ys, ∀ rest rest', Open rest → Open rest' →
      text x ++ rest = text y ++ rest' → view x = view y ∧ rest = rest')
    (hxs : xs ≠ []) (hys : ys ≠ []) (hrest : Ends rest) (hrest' : Ends rest')
    (h : separator.intercalate (xs.map text) ++ rest = separator.intercalate (ys.map text) ++ rest') :
    xs.map view = ys.map view ∧ rest = rest' := by
  have hopen (pieces : List (List Char)) {rest : List Char} (hrest : Ends rest) :
      Open (tailChars separator pieces ++ rest) := by
    cases pieces with
    | nil => exact hends rest hrest
    | cons piece pieces =>
      rw [tailChars, List.append_assoc]
      · exact hseparator _
      · simp
  induction xs generalizing ys with
  | nil => exact absurd rfl hxs
  | cons x xs ih =>
    cases ys with
    | nil => exact absurd rfl hys
    | cons y ys =>
      rw [List.map_cons, List.map_cons, intercalate_cons_eq, intercalate_cons_eq, List.append_assoc,
        List.append_assoc] at h
      obtain ⟨hview, htail⟩ := hpiece x List.mem_cons_self y List.mem_cons_self _ _ (hopen _ hrest)
        (hopen _ hrest') h
      rw [List.map_cons, List.map_cons, hview]
      -- Either both lists end here or both go on; what ends a list is no separator.
      cases xs with
      | nil =>
        cases ys with
        | nil => exact ⟨rfl, htail⟩
        | cons next ys =>
          rw [List.map_nil, List.map_cons, tailChars, tailChars, List.nil_append,
            List.append_assoc] at htail
          · exact absurd htail (hclosed _ _ hrest)
          · simp
      | cons next xs =>
        cases ys with
        | nil =>
          rw [List.map_nil, List.map_cons, tailChars, tailChars, List.nil_append,
            List.append_assoc] at htail
          · exact absurd htail.symm (hclosed _ _ hrest')
          · simp
        | cons next' ys =>
          rw [List.map_cons, List.map_cons, tailChars, tailChars, List.append_assoc,
            List.append_assoc] at htail
          · obtain ⟨hviews, hrests⟩ := ih
              (fun x hx y hy => hpiece x (List.mem_cons_of_mem _ hx) y (List.mem_cons_of_mem _ hy))
              (List.cons_ne_nil _ _) (List.cons_ne_nil _ _) (List.append_cancel_left htail)
            exact ⟨by rw [hviews], hrests⟩
          · simp
          · simp

end Joined

end Typewright.Text
