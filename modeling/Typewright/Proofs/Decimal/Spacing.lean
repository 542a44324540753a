import Mathlib.Order.Monotone.Basic
import Mathlib.Tactic.Ring
import Typewright.Decimal.Shortest

/-!
# The spacing of doubles

The magnitudes of the doubles in order: `Double.code` numbers the doubles of one sign from zero on,
and `Double.magnitudeAt` is the magnitude of the double of that code.  The marks around a double lie
halfway to the codes next to it (`marks_eq`), so the marks of different doubles do not cross
(`mark_le_mark`), and where two of them meet the two fractions differ in parity.
-/

namespace Typewright.Double

/-- How many fractions there are at each scale. -/
def width : Nat :=
  0x10000000000000

/-- The place of a double among the doubles of its sign. -/
def code (x : Double) : Nat :=
  x.scale.val * width + x.fraction.val

/-- The magnitude of the doubles of a code. -/
def magnitudeAt (code : Nat) : Nat :=
  (if code / width = 0 then code % width else width + code % width) * 2 ^ (code / width - 1)

/-! ### Codes -/

theorem code_div_width (x : Double) : x.code / width = x.scale.val := by
  have := x.fraction.isLt
  unfold code width
  omega

theorem code_mod_width (x : Double) : x.code % width = x.fraction.val := by
  have := x.fraction.isLt
  unfold code width
  omega

theorem code_mod_two (x : Double) : x.code % 2 = x.fraction.val % 2 := by
  unfold code width
  omega

/-- The sign and the code tell a double. -/
theorem eq_of_code_eq {x y : Double} (hsign : x.negative = y.negative) (hcode : x.code = y.code) :
    x = y := by
  have hscale : x.scale.val = y.scale.val := by
    rw [← code_div_width, ← code_div_width, hcode]
  have hfraction : x.fraction.val = y.fraction.val := by
    rw [← code_mod_width, ← code_mod_width, hcode]
  obtain ⟨_, ⟨_, _⟩, ⟨_, _⟩⟩ := x
  obtain ⟨_, ⟨_, _⟩, ⟨_, _⟩⟩ := y
  simp_all

theorem magnitude_eq (x : Double) : x.magnitude = magnitudeAt x.code := by
  unfold magnitude magnitudeAt significand shift
  rw [code_div_width, code_mod_width, Nat.pow_eq]
  rfl

/-- From one code to the next the magnitude grows by the step of its scale. -/
theorem magnitudeAt_succ (code : Nat) :
    magnitudeAt (code + 1) = magnitudeAt code + 2 ^ (code / width - 1) := by
  unfold magnitudeAt
  by_cases hlast : code % width + 1 < width
  · -- The fraction grows by one and the scale stays.
    have hdiv : (code + 1) / width = code / width := by unfold width at *; omega
    have hmod : (code + 1) % width = code % width + 1 := by unfold width at *; omega
    rw [hdiv, hmod]
    split <;> ring
  · -- The last fraction of a scale: the next double is the first one of the next scale.
    have hdiv : (code + 1) / width = code / width + 1 := by unfold width at *; omega
    have hmod : (code + 1) % width = 0 := by unfold width at *; omega
    have hlast' : code % width = width - 1 := by unfold width at *; omega
    rw [hdiv, hmod, hlast', if_neg (Nat.succ_ne_zero _), Nat.add_sub_cancel, Nat.add_zero]
    by_cases hscale : code / width = 0
    · rw [if_pos hscale, hscale]
      rfl
    · obtain ⟨scale, hscale'⟩ := Nat.exists_eq_succ_of_ne_zero hscale
      rw [if_neg hscale, hscale', Nat.succ_eq_add_one, Nat.add_sub_cancel, pow_succ]
      unfold width
      omega

theorem magnitudeAt_strictMono : StrictMono magnitudeAt := by
  refine strictMono_nat_of_lt_succ fun code => ?_
  rw [magnitudeAt_succ]
  exact Nat.lt_add_of_pos_right (Nat.two_pow_pos _)

@[simp] theorem magnitudeAt_zero : magnitudeAt 0 = 0 := rfl

theorem magnitude_pos_iff {x : Double} : 0 < x.magnitude ↔ 0 < x.code := by
  rw [magnitude_eq, ← magnitudeAt_zero]
  exact magnitudeAt_strictMono.lt_iff_lt

/-! ### Marks -/

/-- The mark halfway between a code and the next one, in quarters. -/
def markAfter (code : Nat) : Nat :=
  2 * (magnitudeAt code + magnitudeAt (code + 1))

theorem markAfter_strictMono : StrictMono markAfter := by
  refine strictMono_nat_of_lt_succ fun code => ?_
  have h₁ := magnitudeAt_strictMono (Nat.lt_add_one code)
  have h₂ := magnitudeAt_strictMono (Nat.lt_add_one (code + 1))
  unfold markAfter
  omega

/-- The marks around a positive double are halfway to its neighbours. -/
theorem marks_eq {x : Double} (h : 0 < x.magnitude) :
    x.marks = (markAfter (x.code - 1), 4 * x.magnitude, markAfter x.code) := by
  obtain ⟨before, hbefore⟩ := Nat.exists_eq_succ_of_ne_zero (magnitude_pos_iff.1 h).ne'
  have hstep := magnitudeAt_succ before
  -- Above the double the marks lie as its own scale says; below it, as the scale of the double
  -- before.
  have hupper : markAfter x.code = 4 * x.magnitude + 2 * 2 ^ x.shift := by
    unfold markAfter
    rw [magnitudeAt_succ, ← magnitude_eq, code_div_width, shift]
    ring
  have hlower : markAfter (x.code - 1) =
      4 * x.magnitude - if x.fraction.val = 0 ∧ 1 < x.scale.val then 2 ^ x.shift
        else 2 * 2 ^ x.shift := by
    unfold markAfter
    rw [hbefore, Nat.succ_sub_one, ← Nat.succ_eq_add_one, ← hbefore, ← magnitude_eq]
    rw [← Nat.succ_eq_add_one, ← hbefore, ← magnitude_eq] at hstep
    have hscale := code_div_width x
    have hfraction := code_mod_width x
    by_cases hfirst : x.fraction.val = 0 ∧ 1 < x.scale.val
    · -- The first double of a scale: below it the doubles lie twice as close.
      have hdiv : before / width = x.scale.val - 1 := by unfold width at *; omega
      have hshift : 2 ^ x.shift = 2 * 2 ^ (x.scale.val - 1 - 1) := by
        rw [← pow_succ', shift]
        congr 1
        omega
      rw [hdiv] at hstep
      rw [if_pos hfirst]
      omega
    · have hdiv : before / width - 1 = x.shift := by unfold width shift at *; omega
      rw [hdiv] at hstep
      rw [if_neg hfirst]
      omega
  unfold marks
  rw [Nat.pow_eq, hupper, hlower]

/-- The upper mark of a double is not above the lower mark of a larger one; if they meet, the
    larger one comes next. -/
theorem mark_le_mark {a b : Nat} (h : a < b) :
    markAfter a ≤ markAfter (b - 1) ∧ (markAfter a = markAfter (b - 1) → b = a + 1) := by
  refine ⟨markAfter_strictMono.monotone (by omega), fun hmeet => ?_⟩
  have := markAfter_strictMono.injective hmeet
  omega

end Typewright.Double
