import Mathlib.Algebra.Group.Nat.Defs
import Typewright.Proofs.Naming.Identifier
import Typewright.Text.Natural

/-!
# What written natural numbers are read as

A decimal number of 64 bits is read just from the texts that write it (`Text.word?_eq_some_iff`): a plus
sign may come first, and zeros may lead.  The usual text of a number is one of them
(`Text.word?_toString`).
-/

namespace Typewright.Text

/-! ### Digits -/

theorem digitIn?_of_isDigit {c : Char} (h : c.isDigit = true) :
    digitIn? 10 c = some (c.toNat - '0'.toNat) := by
  have hrange : '0' ≤ c ∧ c ≤ '9' := by
    rw [← Naming.isDigit_eq_isDigit, Naming.isDigit_iff] at h
    exact h
  have hvalue : c.toNat - '0'.toNat < 10 := by
    rw [← Naming.isDigit_eq_isDigit, Naming.isDigit_iff] at h
    have : '0'.toNat = 48 := rfl
    omega
  simp only [digitIn?, if_pos hrange]
  rw [Option.filter_some, if_pos (decide_eq_true hvalue)]

/-- Only a decimal digit is read as a digit in base ten; letters have values that are too large. -/
theorem isDigit_of_digitIn? {c : Char} {v : Nat} (h : digitIn? 10 c = some v) : c.isDigit = true := by
  rw [← Naming.isDigit_eq_isDigit, Naming.isDigit, Bool.and_eq_true, decide_eq_true_iff,
    decide_eq_true_iff]
  unfold digitIn? at h
  obtain ⟨hvalue, hlt⟩ := Option.filter_eq_some_iff.1 h
  rw [decide_eq_true_iff] at hlt
  split_ifs at hvalue with hdigit hlower hupper
  · exact hdigit
  · have := Option.some.inj hvalue
    omega
  · have := Option.some.inj hvalue
    omega

theorem foldlM_digits {cs : List Char} (h : ∀ c ∈ cs, c.isDigit = true) (n : Nat) :
    cs.foldlM (fun n c => (digitIn? 10 c).map (n * 10 + ·)) n = some (Nat.ofDigitChars 10 cs n) := by
  induction cs generalizing n with
  | nil => rfl
  | cons c cs ih =>
    rw [List.foldlM_cons, digitIn?_of_isDigit (h c List.mem_cons_self), Nat.ofDigitChars_cons,
      Nat.mul_comm 10]
    exact ih (fun d hd => h d (List.mem_cons_of_mem _ hd)) _

theorem isDigit_of_foldlM_digits {cs : List Char} {n v : Nat}
    (h : cs.foldlM (fun n c => (digitIn? 10 c).map (n * 10 + ·)) n = some v) :
    ∀ c ∈ cs, c.isDigit = true := by
  induction cs generalizing n with
  | nil => exact List.forall_mem_nil _
  | cons c cs ih =>
    rw [List.foldlM_cons] at h
    obtain ⟨next, hnext, hrest⟩ := Option.bind_eq_some_iff.1 h
    obtain ⟨digit, hdigit, -⟩ := Option.map_eq_some_iff.1 hnext
    exact List.forall_mem_cons.2 ⟨isDigit_of_digitIn? hdigit, ih hrest⟩

theorem natIn?_eq_some_iff {cs : List Char} {n : Nat} :
    natIn? 10 cs = some n ↔
      cs ≠ [] ∧ (∀ c ∈ cs, c.isDigit = true) ∧ Nat.ofDigitChars 10 cs 0 = n := by
  cases cs with
  | nil => simp [natIn?]
  | cons c cs =>
    have hread : natIn? 10 (c :: cs) =
        (c :: cs).foldlM (fun n c => (digitIn? 10 c).map (n * 10 + ·)) 0 := rfl
    rw [hread]
    constructor
    · intro h
      have hdigits := isDigit_of_foldlM_digits h
      rw [foldlM_digits hdigits] at h
      exact ⟨List.cons_ne_nil c cs, hdigits, Option.some.inj h⟩
    · rintro ⟨-, hdigits, rfl⟩
      exact foldlM_digits hdigits 0

/-! ### Numbers of 64 bits -/

/-- The text writes the number, which has 64 bits: a plus sign may come first, then there are decimal
    digits. -/
def WritesWord (s : String) (n : Nat) : Prop :=
  ∃ digits, (s.toList = digits ∨ s.toList = '+' :: digits) ∧ digits ≠ [] ∧
    (∀ c ∈ digits, c.isDigit = true) ∧ Nat.ofDigitChars 10 digits 0 = n ∧ n < 2 ^ 64

/-- A number is read just from the texts that write it. -/
theorem word?_eq_some_iff {s : String} {n : Nat} : word? s = some n ↔ WritesWord s n := by
  -- Digits are read as they stand, since they do not start with a sign.
  have hplus {cs : List Char} (hdigits : ∀ c ∈ cs, c.isDigit = true) : ∀ rest, cs ≠ '+' :: rest := by
    rintro rest rfl
    exact absurd (hdigits '+' List.mem_cons_self) (by decide)
  unfold word? boundedNat?
  rw [Option.filter_eq_some_iff, decide_eq_true_iff, natIn?_eq_some_iff]
  constructor
  · rintro ⟨⟨hne, hdigits, hvalue⟩, hlt⟩
    refine ⟨_, ?_, hne, hdigits, hvalue, hlt⟩
    split
    · next rest hs => exact .inr hs
    · exact .inl rfl
  · rintro ⟨digits, hs, hne, hdigits, hvalue, hlt⟩
    refine ⟨?_, hlt⟩
    rcases hs with hs | hs
    · split
      · next rest hrest => exact absurd (hs.symm.trans hrest) (hplus hdigits rest)
      · exact ⟨hs ▸ hne, hs ▸ hdigits, hs ▸ hvalue⟩
    · split
      · next rest hrest =>
        obtain rfl := (List.cons.inj (hs.symm.trans hrest)).2
        exact ⟨hne, hdigits, hvalue⟩
      · next hrest => exact absurd hs (hrest digits)

/-- A number of 64 bits is read back from its digits. -/
theorem word?_toString {n : Nat} (h : n < 0x10000000000000000) : word? (toString n) = some n := by
  have hdigits : ∀ c ∈ Nat.toDigits 10 n, c.isDigit = true :=
    fun c hc => Nat.isDigit_of_mem_toDigits (by decide) (by decide) hc
  have hchars : (toString n).toList = Nat.toDigits 10 n := Nat.toList_repr
  exact word?_eq_some_iff.2 ⟨_, .inl hchars, List.ne_nil_of_length_pos Nat.length_toDigits_pos, hdigits,
    Nat.ofDigitChars_ten_toDigits, h⟩

theorem toString_ne_empty (n : Nat) : toString n ≠ "" := by
  intro h
  have hchars : (toString n).toList = Nat.toDigits 10 n := Nat.toList_repr
  rw [h] at hchars
  exact List.ne_nil_of_length_pos Nat.length_toDigits_pos hchars.symm

end Typewright.Text
