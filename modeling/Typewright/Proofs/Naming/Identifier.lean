import Typewright.Proofs.Naming.Numbered

/-!
# Identifiers are fixed

An identifier is never empty, and the identifier of an identifier is itself, also after it has been
numbered (`identifier_numbered`): a name made from a name is that name.
-/

namespace Typewright.Naming

/-! ### Letters and digits by their codes -/

theorem isLetter_iff {c : Char} :
    isLetter c = true ↔ 65 ≤ c.toNat ∧ c.toNat ≤ 90 ∨ 97 ≤ c.toNat ∧ c.toNat ≤ 122 := by
  simp [isLetter, Char.le_def, UInt32.le_iff_toNat_le]

theorem isDigit_iff {c : Char} : isDigit c = true ↔ 48 ≤ c.toNat ∧ c.toNat ≤ 57 := by
  simp [isDigit, Char.le_def, UInt32.le_iff_toNat_le]

theorem isDigit_eq_isDigit (c : Char) : isDigit c = c.isDigit := rfl

theorem toNat_toUpper (c : Char) :
    c.toUpper.toNat = if 97 ≤ c.toNat ∧ c.toNat ≤ 122 then c.toNat - 32 else c.toNat := by
  unfold Char.toUpper
  split
  · next h =>
    have hlow : 97 ≤ c.toNat := UInt32.le_iff_toNat_le.1 h.1
    have hhigh : c.toNat ≤ 122 := UInt32.le_iff_toNat_le.1 h.2
    have hshift : ('A'.val - 'a'.val).toNat = 4294967264 := by decide
    change (c.val + ('A'.val - 'a'.val)).toNat = _
    rw [if_pos ⟨hlow, hhigh⟩, UInt32.toNat_add, hshift]
    change (c.toNat + _) % _ = _
    omega
  · next h =>
    rw [if_neg]
    exact fun hsmall => h ⟨UInt32.le_iff_toNat_le.2 hsmall.1, UInt32.le_iff_toNat_le.2 hsmall.2⟩

theorem isLetter_toUpper {c : Char} (h : isLetter c = true) : isLetter c.toUpper = true := by
  rw [isLetter_iff] at h ⊢
  rw [toNat_toUpper]
  split <;> omega

theorem toUpper_eq_of_isDigit {c : Char} (h : isDigit c = true) : c.toUpper = c := by
  rw [isDigit_iff] at h
  rw [← Char.toNat_inj, toNat_toUpper, if_neg (by omega)]

theorem toUpper_toUpper (c : Char) : c.toUpper.toUpper = c.toUpper := by
  rw [← Char.toNat_inj, toNat_toUpper, toNat_toUpper]
  split_ifs <;> omega

/-! ### Words -/

/-- Letters and digits, the first of them no small letter. -/
def IsWord (cs : List Char) : Prop :=
  (∀ c ∈ cs, isLetter c = true ∨ isDigit c = true) ∧ ∀ c ∈ cs.head?, c.toUpper = c

/-- Inside a word nothing is changed. -/
theorem capitalizeWords_false_eq {cs : List Char}
    (h : ∀ c ∈ cs, isLetter c = true ∨ isDigit c = true) : capitalizeWords false cs = cs := by
  induction cs with
  | nil => rfl
  | cons c rest ih =>
    have hrest := ih fun d hd => h d (List.mem_cons_of_mem _ hd)
    unfold capitalizeWords
    split
    · simp [hrest]
    · next hletter => simp [(h c List.mem_cons_self).resolve_left hletter, hrest]

/-- A word is capitalized already. -/
theorem IsWord.capitalizeWords_eq {cs : List Char} (h : IsWord cs) : capitalizeWords true cs = cs := by
  obtain ⟨hchars, hhead⟩ := h
  cases cs with
  | nil => rfl
  | cons c rest =>
    have hrest := capitalizeWords_false_eq fun d hd => hchars d (List.mem_cons_of_mem _ hd)
    have hupper : c.toUpper = c := hhead c rfl
    unfold capitalizeWords
    split
    · simp [hrest, hupper]
    · next hletter => simp [(hchars c List.mem_cons_self).resolve_left hletter, hrest]

/-- What separates words is dropped, so only letters and digits are left. -/
theorem mem_capitalizeWords {starting : Bool} {cs : List Char} {c : Char}
    (h : c ∈ capitalizeWords starting cs) : isLetter c = true ∨ isDigit c = true := by
  induction cs generalizing starting with
  | nil => simp [capitalizeWords] at h
  | cons d rest ih =>
    unfold capitalizeWords at h
    split at h
    · next hletter =>
      rcases List.mem_cons.1 h with rfl | h
      · split
        · exact .inl (isLetter_toUpper hletter)
        · exact .inl hletter
      · exact ih h
    · split at h
      · next hdigit =>
        rcases List.mem_cons.1 h with rfl | h
        · exact .inr hdigit
        · exact ih h
      · exact ih h

/-- The words of a text, put together, hold letters and digits and begin with no small letter. -/
theorem isWord_capitalizeWords (cs : List Char) : IsWord (capitalizeWords true cs) := by
  refine ⟨fun c hc => mem_capitalizeWords hc, fun c hc => ?_⟩
  induction cs with
  | nil => simp [capitalizeWords] at hc
  | cons d rest ih =>
    unfold capitalizeWords at hc
    split at hc
    · simp only [if_true, List.head?_cons, Option.mem_def, Option.some.injEq] at hc
      rw [← hc, toUpper_toUpper]
    · split at hc
      · next hdigit =>
        simp only [List.head?_cons, Option.mem_def, Option.some.injEq] at hc
        rw [← hc, toUpper_eq_of_isDigit hdigit]
      -- What is skipped before the first word leaves the start where it was.
      · rw [Bool.true_or] at hc
        exact ih hc

/-! ### Identifiers -/

theorem isWord_unknown : IsWord unknown := by
  have hletters : unknown.all isLetter = true := by decide
  refine ⟨fun c hc => .inl (List.all_eq_true.1 hletters c hc), fun c hc => ?_⟩
  rw [← Option.some.inj hc]
  decide

theorem completeIdentifier_ne_nil (cs : List Char) : completeIdentifier cs ≠ [] := by
  unfold completeIdentifier
  split
  · exact List.cons_ne_nil _ _
  · split <;> exact List.cons_ne_nil _ _

/-- A text without letters or digits still has an identifier. -/
theorem identifier_ne_empty (text : String) : identifier text ≠ "" := by
  intro h
  refine completeIdentifier_ne_nil (capitalizeWords true text.toList) ?_
  have := congrArg String.toList h
  rwa [identifier, String.toList_ofList] at this

/-- A word with more letters and digits after it, and perhaps an underscore before a digit at its
    start, is an identifier already. -/
theorem identifierChars_completeIdentifier {cs digits : List Char} (h : IsWord cs)
    (hdigits : ∀ c ∈ digits, isDigit c = true) :
    identifierChars (completeIdentifier cs ++ digits) = completeIdentifier cs ++ digits := by
  have happend {word : List Char} (hword : IsWord word) (hne : word ≠ []) : IsWord (word ++ digits) := by
    refine ⟨fun c hc => ?_, fun c hc => ?_⟩
    · rcases List.mem_append.1 hc with hc | hc
      · exact hword.1 c hc
      · exact .inr (hdigits c hc)
    · rw [List.head?_append_of_ne_nil _ hne] at hc
      exact hword.2 c hc
  unfold identifierChars
  cases cs with
  | nil =>
    rw [completeIdentifier, (happend isWord_unknown (by decide)).capitalizeWords_eq]
    rfl
  | cons c rest =>
    have hword := (happend h (List.cons_ne_nil _ _)).capitalizeWords_eq
    rw [completeIdentifier]
    split
    · next hdigit =>
      -- The underscore is a separator, so it is dropped and put back.
      change completeIdentifier (capitalizeWords true (c :: rest ++ digits)) = _
      rw [hword, List.cons_append, completeIdentifier, if_pos hdigit, List.cons_append,
        List.cons_append]
    · next hdigit =>
      rw [hword, List.cons_append, completeIdentifier, if_neg hdigit]

/-- The identifier of a numbered identifier is itself. -/
theorem identifier_numbered (text : String) (n : Nat) :
    identifier (numbered (identifier text) n) = numbered (identifier text) n := by
  have hdigits : ∀ c ∈ suffixChars n, isDigit c = true := by
    intro c hc
    unfold suffixChars at hc
    split at hc
    · exact absurd hc List.not_mem_nil
    · have hdigit : c.isDigit = true := Nat.isDigit_of_mem_toDigits (by decide) (by decide) hc
      rwa [isDigit_eq_isDigit]
  rw [← String.toList_inj, identifier, String.toList_ofList, toList_numbered, identifier,
    String.toList_ofList]
  exact identifierChars_completeIdentifier (isWord_capitalizeWords _) hdigits

/-- An identifier is its own identifier. -/
theorem identifier_identifier (text : String) : identifier (identifier text) = identifier text :=
  identifier_numbered text 0

end Typewright.Naming
