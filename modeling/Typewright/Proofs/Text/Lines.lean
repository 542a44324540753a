import Mathlib.Data.List.DropRight
import Typewright.Text.Blank

/-!
# Pieces and lines of texts

A text is split at each separator in it, so that a joined text has the pieces of the texts that it is
joined from (`splitOnChar_intercalate`), and what stands in front of a text joins its first piece
(`splitOnChar_append_of_notMem`).  A line of a text holds no line feed, and trimming a text leaves a
beginning of it that ends without a blank (`prefix_trimEnd`).
-/

namespace Typewright.Text

/-! ### Pieces -/

theorem splitOnChar_append (separator : Char) (xs ys : List Char) :
    splitOnChar separator (xs ++ separator :: ys) =
      splitOnChar separator xs ++ splitOnChar separator ys := by
  induction xs with
  | nil => simp [splitOnChar]
  | cons c rest ih =>
    rw [List.cons_append, splitOnChar, splitOnChar, ih]
    split
    · rfl
    · cases hpieces : splitOnChar separator rest with
      | nil => exact absurd hpieces (splitOnChar_ne_nil separator rest)
      | cons piece pieces => rfl

/-- Characters in front of a text, none of them a separator, join its first piece. -/
theorem splitOnChar_append_of_notMem {separator : Char} {xs : List Char} (h : separator ∉ xs)
    (ys : List Char) :
    splitOnChar separator (xs ++ ys) = (splitOnChar separator ys).modifyHead (xs ++ ·) := by
  induction xs with
  | nil =>
    rw [List.nil_append]
    cases splitOnChar separator ys <;> rfl
  | cons c rest ih =>
    have hne : c ≠ separator := fun heq => h (heq ▸ List.mem_cons_self)
    rw [List.cons_append, splitOnChar, if_neg hne, ih fun hmem => h (List.mem_cons_of_mem _ hmem)]
    cases hpieces : splitOnChar separator ys with
    | nil => exact absurd hpieces (splitOnChar_ne_nil separator ys)
    | cons piece pieces => rfl

theorem splitOnChar_eq_singleton {separator : Char} {cs : List Char} (h : separator ∉ cs) :
    splitOnChar separator cs = [cs] := by
  have hsplit := splitOnChar_append_of_notMem h []
  rwa [List.append_nil, splitOnChar, List.modifyHead_cons, List.append_nil] at hsplit

/-- Joined texts are split one after the other. -/
theorem splitOnChar_intercalate {separator : String} {mark : Char} (hmark : separator.toList = [mark])
    {texts : List String} (h : texts ≠ []) :
    splitOnChar mark (separator.intercalate texts).toList =
      texts.flatMap fun text => splitOnChar mark text.toList := by
  induction texts with
  | nil => exact absurd rfl h
  | cons text texts ih =>
    cases texts with
    | nil => rw [String.intercalate_singleton, List.flatMap_singleton]
    | cons next texts =>
      rw [String.intercalate_cons_cons, List.flatMap_cons, ← ih (List.cons_ne_nil _ _),
        String.toList_append, String.toList_append, hmark, List.append_assoc, List.singleton_append,
        splitOnChar_append]

/-! ### Lines -/

/-- A line of a text holds no line feed. -/
theorem notMem_of_mem_lines {s line : String} (h : line ∈ lines s) : '\n' ∉ line.toList := by
  have hpieces : ∀ piece ∈ splitOnChar '\n' s.toList, '\n' ∉ piece :=
    fun piece hpiece => not_mem_of_mem_splitOnChar hpiece
  -- Taking a carriage return off the end adds no line feed.
  have hdrop (piece : List Char) : dropCarriageReturn piece ⊆ piece := by
    unfold dropCarriageReturn
    split
    · next rest hreverse =>
      intro c hc
      rw [← List.mem_reverse, hreverse]
      exact List.mem_cons_of_mem _ (List.mem_reverse.1 hc)
    · exact List.Subset.refl _
  have hended : ∀ piece ∈ (splitOnChar '\n' s.toList).dropLast.map dropCarriageReturn,
      '\n' ∉ piece := by
    refine List.forall_mem_map.2 fun piece hpiece hmem => ?_
    exact hpieces piece (List.dropLast_subset _ hpiece) (hdrop piece hmem)
  unfold lines at h
  obtain ⟨piece, hpiece, rfl⟩ := List.mem_map.1 h
  rw [String.toList_ofList]
  split at hpiece
  · exact hended piece hpiece
  · rcases List.mem_append.1 hpiece with hpiece | hpiece
    · exact hended piece hpiece
    · rw [List.mem_singleton.1 hpiece]
      cases hlast : (splitOnChar '\n' s.toList).getLast? with
      | none => exact List.not_mem_nil
      | some last => exact hpieces last (List.mem_of_getLast? hlast)

/-! ### Trimming -/

theorem toList_trimEnd (s : String) : (trimEnd s).toList = s.toList.rdropWhile isBlank :=
  String.toList_ofList

theorem trimEnd_prefix (s : String) : (trimEnd s).toList <+: s.toList := by
  rw [toList_trimEnd]
  exact List.rdropWhile_prefix _ _

/-- A beginning of a text that ends without a blank is not trimmed. -/
theorem prefix_trimEnd {s : String} {xs : List Char} {c : Char} (h : xs ++ [c] <+: s.toList)
    (hc : isBlank c = false) : xs ++ [c] <+: (trimEnd s).toList := by
  obtain ⟨ys, hys⟩ := h
  rw [toList_trimEnd, ← hys]
  clear hys
  induction ys using List.reverseRecOn with
  | nil =>
    have hkeep : ¬ isBlank c = true := by rw [hc]; exact Bool.false_ne_true
    have hself : (xs ++ [c] ++ []).rdropWhile isBlank = xs ++ [c] := by
      rw [List.append_nil, List.rdropWhile_concat_neg _ _ _ hkeep]
    exact ⟨[], by rw [hself, List.append_nil]⟩
  | append_singleton ys y ih =>
    rw [← List.append_assoc, List.rdropWhile_concat]
    split
    · exact ih
    · rw [List.append_assoc]
      exact List.prefix_append _ _

end Typewright.Text
