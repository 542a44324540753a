import Mathlib.Algebra.Order.Field.Rat
import Mathlib.Algebra.Order.Field.Power
import Mathlib.Data.List.DropRight
import Mathlib.Tactic.FieldSimp
import Mathlib.Tactic.Linarith
import Mathlib.Tactic.Positivity
import Typewright.Proofs.Decimal.Spacing

/-!
# The shortest decimal singles out its double

`Double.SinglesOut x q` says that the number `q` lies between the marks around `x`, and that no mark
counts unless the fraction is even.  At most one positive double is singled out by a number
(`code_eq_of_singlesOut`).  Seventeen digits always suffice (`onGrid?_leading`), so the shortest
decimal of a positive double singles it out (`singlesOut_shortest`).
-/

namespace Typewright

namespace Decimal

/-- The number that a decimal writes. -/
def value (d : Decimal) : ℚ :=
  (Nat.ofDigitChars 10 d.digits 0 : ℚ) * 10 ^ (d.exponent + 1 - d.digits.length)

/-! ### Digits -/

theorem dropTrailingZeros_append (digits : List Char) :
    ∃ count, digits = dropTrailingZeros digits ++ List.replicate count '0' := by
  refine ⟨(digits.rtakeWhile (· == '0')).length, ?_⟩
  have hzeros : digits.rtakeWhile (· == '0') =
      List.replicate (digits.rtakeWhile (· == '0')).length '0' := by
    refine List.eq_replicate_length.2 fun c hc => ?_
    simpa using List.mem_rtakeWhile_imp hc
  rw [← hzeros]
  exact List.rdropWhile_append_rtakeWhile.symm

theorem mem_digits_ofNat {n : Nat} {place : Int} {c : Char} (h : c ∈ (ofNat n place).digits) :
    c.isDigit = true := by
  obtain ⟨count, hcount⟩ := dropTrailingZeros_append (digitsOf n)
  have hmem : c ∈ Nat.toDigits 10 n := by
    change c ∈ digitsOf n
    rw [hcount]
    exact List.mem_append_left _ h
  exact Nat.isDigit_of_mem_toDigits (by decide) (by decide) hmem

/-- Dropping the zeros at the end changes nothing. -/
theorem value_ofNat (n : Nat) (place : Int) : (ofNat n place).value = n * 10 ^ place := by
  obtain ⟨count, hcount⟩ := dropTrailingZeros_append (digitsOf n)
  have hlength := congrArg List.length hcount
  -- The zeros that are dropped are a power of ten, which the exponent makes up for.
  have hn : n = 10 ^ count * Nat.ofDigitChars 10 (dropTrailingZeros (digitsOf n)) 0 := by
    rw [← Nat.ofDigitChars_replicate_zero, ← Nat.ofDigitChars_append, ← hcount]
    exact Nat.ofDigitChars_ten_toDigits.symm
  rw [List.length_append, List.length_replicate] at hlength
  have hexponent : place + ((digitsOf n).length - 1 : Int) + 1 -
      (dropTrailingZeros (digitsOf n)).length = count + place := by
    rw [hlength]
    push_cast
    ring
  unfold value ofNat
  simp only
  rw [hexponent, zpow_add₀ (by norm_num), zpow_natCast]
  conv_rhs => rw [hn]
  push_cast
  ring

end Decimal

namespace Double

/-- A number lies between the marks around a double; the marks themselves count when the fraction
    is even. -/
def SinglesOut (x : Double) (q : ℚ) : Prop :=
  x.marks.1 ≤ 4 * unitsPerOne * q ∧ 4 * unitsPerOne * q ≤ x.marks.2.2 ∧
    (x.fraction.val % 2 = 1 →
      x.marks.1 < 4 * unitsPerOne * q ∧ 4 * unitsPerOne * q < x.marks.2.2)

theorem unitsPerOne_pos : 0 < unitsPerOne := by
  unfold unitsPerOne
  generalize 1074 = exponent
  exact Nat.two_pow_pos exponent

-- The number is never computed below.
attribute [local irreducible] unitsPerOne

/-! ### At most one double -/

theorem not_singlesOut_both {x y : Double} {q : ℚ} (hx : 0 < x.magnitude) (hy : 0 < y.magnitude)
    (hlt : x.code < y.code) (h₁ : x.SinglesOut q) (h₂ : y.SinglesOut q) : False := by
  obtain ⟨-, hupper, hodd₁⟩ := h₁
  obtain ⟨hlower, -, hodd₂⟩ := h₂
  rw [marks_eq hx] at hupper hodd₁
  rw [marks_eq hy] at hlower hodd₂
  obtain ⟨hle, hnext⟩ := mark_le_mark hlt
  have hmeet : markAfter x.code = markAfter (y.code - 1) := by
    refine le_antisymm hle ?_
    exact_mod_cast hlower.trans hupper
  -- The two doubles are neighbours, so one of the fractions is odd and its mark does not count.
  have hparity : x.fraction.val % 2 = 1 ∨ y.fraction.val % 2 = 1 := by
    have := hnext hmeet
    rw [← code_mod_two, ← code_mod_two]
    omega
  rw [hmeet] at hupper hodd₁
  rcases hparity with hodd | hodd
  · exact absurd (hodd₁ hodd).2 (not_lt.2 hlower)
  · exact absurd (hodd₂ hodd).1 (not_lt.2 hupper)

/-- A number singles out at most one positive double. -/
theorem code_eq_of_singlesOut {x y : Double} {q : ℚ} (hx : 0 < x.magnitude) (hy : 0 < y.magnitude)
    (h₁ : x.SinglesOut q) (h₂ : y.SinglesOut q) : x.code = y.code := by
  rcases lt_trichotomy x.code y.code with hlt | heq | hlt
  · exact (not_singlesOut_both hx hy hlt h₁ h₂).elim
  · exact heq
  · exact (not_singlesOut_both hy hx hlt h₂ h₁).elim

theorem significand_pos {x : Double} (h : 0 < x.magnitude) : 0 < x.significand :=
  Nat.pos_of_mul_pos_right h

/-- Zero singles out no positive double. -/
theorem pos_of_singlesOut {x : Double} {q : ℚ} (hx : 0 < x.magnitude) (h : x.SinglesOut q) :
    0 < q := by
  have hlower : 0 < x.marks.1 := by
    have hstep : 2 ^ x.shift ≤ x.magnitude := by
      unfold magnitude
      exact Nat.le_mul_of_pos_left _ (significand_pos hx)
    have hpos := Nat.two_pow_pos x.shift
    unfold marks
    simp only [Nat.pow_eq]
    split <;> omega
  have hq : (0 : ℚ) < 4 * unitsPerOne * q := lt_of_lt_of_le (by exact_mod_cast hlower) h.1
  have hunits : (0 : ℚ) < 4 * unitsPerOne := mul_pos four_pos (Nat.cast_pos.2 unitsPerOne_pos)
  exact (mul_pos_iff_of_pos_left hunits).1 hq

/-! ### The grid of a place -/

/-- What quarters are multiplied by, so that the grid of a place is a whole number. -/
def gridUp (place : Int) : Nat :=
  10 ^ (-place).toNat

/-- The distance between the multiples of `10 ^ place`, in quarters, multiplied up. -/
def gridStep (place : Int) : Nat :=
  4 * unitsPerOne * 10 ^ place.toNat

/-- Whether a multiple of `10 ^ place` singles out the double, in whole numbers. -/
def fits (x : Double) (place : Int) (n : Nat) : Bool :=
  if x.fraction.val % 2 = 0 then
    x.marks.1 * gridUp place ≤ n * gridStep place && n * gridStep place ≤ x.marks.2.2 * gridUp place
  else
    x.marks.1 * gridUp place < n * gridStep place && n * gridStep place < x.marks.2.2 * gridUp place

/-- The grid point at or below a double. -/
def gridFloor (x : Double) (place : Int) : Nat :=
  x.marks.2.1 * gridUp place / gridStep place

/-- How far a double lies above the grid point below it. -/
def gridRest (x : Double) (place : Int) : Nat :=
  x.marks.2.1 * gridUp place % gridStep place

/-- Of the two grid points around the double, the one that fits; of two, the nearer one. -/
theorem onGrid?_eq (x : Double) (place : Int) :
    x.onGrid? place =
      match x.fits place (x.gridFloor place), x.fits place (x.gridFloor place + 1) with
      | true, true =>
        if 2 * x.gridRest place < gridStep place then some (x.gridFloor place)
        else if gridStep place < 2 * x.gridRest place then some (x.gridFloor place + 1)
        else if x.gridFloor place % 2 = 0 then some (x.gridFloor place)
        else some (x.gridFloor place + 1)
      | true, false => some (x.gridFloor place)
      | false, true => some (x.gridFloor place + 1)
      | false, false => none := rfl

theorem fits_of_onGrid? {x : Double} {place : Int} {n : Nat} (h : x.onGrid? place = some n) :
    x.fits place n = true := by
  rw [onGrid?_eq] at h
  split at h <;> grind

theorem onGrid?_isSome {x : Double} {place : Int}
    (h : x.fits place (x.gridFloor place) = true ∨ x.fits place (x.gridFloor place + 1) = true) :
    (x.onGrid? place).isSome = true := by
  rw [onGrid?_eq]
  split <;> grind

theorem gridUp_pos (place : Int) : 0 < gridUp place :=
  Nat.pow_pos (by decide)

theorem gridStep_pos (place : Int) : 0 < gridStep place :=
  Nat.mul_pos (Nat.mul_pos (by decide) unitsPerOne_pos) (Nat.pow_pos (by decide))

/-- The grid point `n` of a place is the number `n × 10 ^ place`. -/
theorem gridStep_eq (place : Int) :
    (gridStep place : ℚ) = 4 * unitsPerOne * 10 ^ place * gridUp place := by
  have hpower : (10 : ℚ) ^ place.toNat = 10 ^ place * 10 ^ (-place).toNat := by
    rw [← zpow_natCast, ← zpow_natCast, ← zpow_add₀ (by norm_num)]
    congr 1
    omega
  unfold gridStep gridUp
  push_cast
  rw [hpower]
  ring

theorem singlesOut_of_fits {x : Double} {place : Int} {n : Nat} (h : x.fits place n = true) :
    x.SinglesOut (n * 10 ^ place) := by
  have hup : (0 : ℚ) < gridUp place := Nat.cast_pos.2 (gridUp_pos place)
  have hscale : 4 * unitsPerOne * (n * 10 ^ place) * gridUp place =
      ((n * gridStep place : Nat) : ℚ) := by
    push_cast
    rw [gridStep_eq]
    ring
  -- The comparisons of `fits` are those of the numbers, multiplied up.
  have hle {a : Nat} (h : a * gridUp place ≤ n * gridStep place) :
      (a : ℚ) ≤ 4 * unitsPerOne * (n * 10 ^ place) := by
    rw [← mul_le_mul_iff_of_pos_right hup, hscale]
    exact_mod_cast h
  have hge {a : Nat} (h : n * gridStep place ≤ a * gridUp place) :
      4 * unitsPerOne * (n * 10 ^ place) ≤ (a : ℚ) := by
    rw [← mul_le_mul_iff_of_pos_right hup, hscale]
    exact_mod_cast h
  have hlt {a : Nat} (h : a * gridUp place < n * gridStep place) :
      (a : ℚ) < 4 * unitsPerOne * (n * 10 ^ place) := by
    rw [← mul_lt_mul_iff_of_pos_right hup, hscale]
    exact_mod_cast h
  have hgt {a : Nat} (h : n * gridStep place < a * gridUp place) :
      4 * unitsPerOne * (n * 10 ^ place) < (a : ℚ) := by
    rw [← mul_lt_mul_iff_of_pos_right hup, hscale]
    exact_mod_cast h
  unfold fits at h
  split at h
  · next heven =>
    simp only [Bool.and_eq_true, decide_eq_true_iff] at h
    exact ⟨hle h.1, hge h.2, fun hodd => by omega⟩
  · simp only [Bool.and_eq_true, decide_eq_true_iff] at h
    exact ⟨hle h.1.le, hge h.2.le, fun _ => ⟨hlt h.1, hgt h.2⟩⟩

/-! ### Seventeen digits -/

theorem significand_lt (x : Double) : x.significand < 2 ^ 53 := by
  have := x.fraction.isLt
  unfold significand
  split <;> omega

theorem two_pow_le_ten_pow {exponent count : Nat} (h : exponent ≤ 33 * count) :
    2 ^ exponent ≤ 10 ^ (10 * count) := by
  calc 2 ^ exponent ≤ 2 ^ (33 * count) := Nat.pow_le_pow_right (by decide) h
    _ = (2 ^ 33) ^ count := pow_mul 2 33 count
    _ ≤ (10 ^ 10) ^ count := Nat.pow_le_pow_left (by decide) count
    _ = 10 ^ (10 * count) := (pow_mul 10 10 count).symm

/-- So many places make a whole number of the least positive double.  Their number is a variable
    here and below, so that the power is never computed. -/
theorem unitsPerOne_le {places : Nat} (hplaces : places = 330) : unitsPerOne ≤ 10 ^ places := by
  have hcount : places = 10 * 33 := hplaces
  have hexponent : 1074 ≤ 33 * 33 := by decide
  unfold unitsPerOne
  rw [hcount]
  generalize 1074 = exponent at hexponent ⊢
  rw [Nat.pow_eq]
  exact two_pow_le_ten_pow hexponent

theorem leadingPlace_eq (x : Double) {places : Nat} (hplaces : places = 330) :
    x.leadingPlace =
      ((Decimal.digitsOf (x.magnitude * 10 ^ places / unitsPerOne)).length : Int) - 331 := by
  unfold leadingPlace
  rw [← hplaces]
  rfl

/-- The power of ten of the leading place is not above the double. -/
theorem leading_le {x : Double} (h : 0 < x.magnitude) {places : Nat} (hplaces : places = 330) :
    10 ^ ((Decimal.digitsOf (x.magnitude * 10 ^ places / unitsPerOne)).length - 1) * unitsPerOne ≤
      x.magnitude * 10 ^ places := by
  have hpos : 0 < x.magnitude * 10 ^ places / unitsPerOne := by
    refine Nat.div_pos ?_ unitsPerOne_pos
    exact (unitsPerOne_le hplaces).trans (Nat.le_mul_of_pos_left _ h)
  refine (Nat.mul_le_mul_right _ ?_).trans (Nat.div_mul_le_self _ unitsPerOne)
  generalize x.magnitude * 10 ^ places / unitsPerOne = n at hpos
  unfold Decimal.digitsOf
  -- Below this power of ten there would be fewer digits, and a single digit is at least one.
  rcases Nat.lt_or_ge 1 (Nat.toDigits 10 n).length with hlong | hshort
  · by_contra hlt
    rw [not_le, ← Nat.length_toDigits_le_iff (by decide) (by omega)] at hlt
    omega
  · rw [Nat.sub_eq_zero_of_le hshort]
    exact hpos

/-- The grid sixteen places below the leading one is finer than the doubles are. -/
theorem gridStep_lt {x : Double} (h : 0 < x.magnitude) :
    gridStep (x.leadingPlace - 16) * 10 ^ 16 ≤ 4 * x.magnitude * gridUp (x.leadingPlace - 16) := by
  obtain ⟨places, hplaces⟩ : ∃ places, places = 330 := ⟨_, rfl⟩
  have hle := leading_le h hplaces
  have hpos := Nat.length_toDigits_pos (b := 10) (n := x.magnitude * 10 ^ places / unitsPerOne)
  change 0 < (Decimal.digitsOf _).length at hpos
  rw [leadingPlace_eq x hplaces]
  generalize (Decimal.digitsOf (x.magnitude * 10 ^ places / unitsPerOne)).length = length at *
  unfold gridStep gridUp
  -- Both sides are compared after multiplication by a power of ten.
  have hten : 0 < 10 ^ places := Nat.pow_pos (by decide)
  refine Nat.le_of_mul_le_mul_right ?_ hten
  have hpower : 10 ^ ((length : Int) - 331 - 16).toNat * 10 ^ 16 * 10 ^ places =
      10 ^ (length - 1) * 10 ^ (-((length : Int) - 331 - 16)).toNat := by
    rw [← pow_add, ← pow_add, ← pow_add]
    congr 1
    omega
  calc 4 * unitsPerOne * 10 ^ ((length : Int) - 331 - 16).toNat * 10 ^ 16 * 10 ^ places
      = 4 * unitsPerOne * (10 ^ ((length : Int) - 331 - 16).toNat * 10 ^ 16 * 10 ^ places) := by ring
    _ = 4 * (10 ^ (length - 1) * unitsPerOne) * 10 ^ (-((length : Int) - 331 - 16)).toNat := by
      rw [hpower]
      ring
    _ ≤ 4 * (x.magnitude * 10 ^ places) * 10 ^ (-((length : Int) - 331 - 16)).toNat := by gcongr
    _ = 4 * x.magnitude * 10 ^ (-((length : Int) - 331 - 16)).toNat * 10 ^ places := by ring

theorem fits_of_lt {x : Double} {place : Int} {n : Nat}
    (hlower : x.marks.1 * gridUp place < n * gridStep place)
    (hupper : n * gridStep place < x.marks.2.2 * gridUp place) : x.fits place n = true := by
  unfold fits
  split <;> simp only [Bool.and_eq_true, decide_eq_true_iff]
  · exact ⟨hlower.le, hupper.le⟩
  · exact ⟨hlower, hupper⟩

/-- Below a double, the distance to the mark is a quarter or half of a step. -/
def reach (x : Double) : Nat :=
  if x.fraction.val = 0 ∧ 1 < x.scale.val then 2 ^ x.shift else 2 * 2 ^ x.shift

theorem marks_eq_reach (x : Double) :
    x.marks = (4 * x.magnitude - x.reach, 4 * x.magnitude, 4 * x.magnitude + 2 * 2 ^ x.shift) := rfl

theorem reach_le {x : Double} (h : 0 < x.magnitude) : x.reach ≤ 4 * x.magnitude := by
  have hstep : 2 ^ x.shift ≤ x.magnitude := Nat.le_mul_of_pos_left _ (significand_pos h)
  unfold reach
  split <;> omega

/-- The marks around a double lie more than a step of the fine grid apart. -/
theorem gridStep_lt_reach {x : Double} (h : 0 < x.magnitude) :
    gridStep (x.leadingPlace - 16) <
      x.reach * gridUp (x.leadingPlace - 16) + 2 * 2 ^ x.shift * gridUp (x.leadingPlace - 16) := by
  have hfine := gridStep_lt h
  have hpos := Nat.mul_pos (Nat.two_pow_pos x.shift) (gridUp_pos (x.leadingPlace - 16))
  have hlt := significand_lt x
  have hmagnitude : x.magnitude * gridUp (x.leadingPlace - 16) =
      x.significand * (2 ^ x.shift * gridUp (x.leadingPlace - 16)) := Nat.mul_assoc _ _ _
  generalize gridUp (x.leadingPlace - 16) = up at *
  generalize gridStep (x.leadingPlace - 16) = grid at *
  rw [Nat.mul_assoc, hmagnitude] at hfine
  unfold reach
  split
  · next hfirst =>
    -- The first significand of a scale is only half of the bound.
    have hsignificand : x.significand = 2 ^ 52 := by
      unfold significand
      rw [if_neg (by omega), hfirst.1]
      rfl
    rw [hsignificand] at hfine
    rw [Nat.mul_assoc]
    omega
  · have hbound := (Nat.mul_lt_mul_right hpos).2 hlt
    rw [Nat.mul_assoc]
    omega

/-- Seventeen digits single out any positive double. -/
theorem onGrid?_leading {x : Double} (h : 0 < x.magnitude) :
    (x.onGrid? (x.leadingPlace - 16)).isSome = true := by
  have hwide := gridStep_lt_reach h
  have hreach := Nat.mul_le_mul_right (gridUp (x.leadingPlace - 16)) (reach_le h)
  have hsplit := Nat.div_add_mod' (4 * x.magnitude * gridUp (x.leadingPlace - 16))
    (gridStep (x.leadingPlace - 16))
  have hrest := Nat.mod_lt (4 * x.magnitude * gridUp (x.leadingPlace - 16))
    (gridStep_pos (x.leadingPlace - 16))
  have hstep := Nat.mul_pos (Nat.mul_pos two_pos (Nat.two_pow_pos x.shift))
    (gridUp_pos (x.leadingPlace - 16))
  apply onGrid?_isSome
  unfold gridFloor
  rw [marks_eq_reach]
  simp only
  generalize x.leadingPlace - 16 = place at *
  generalize 4 * x.magnitude * gridUp place / gridStep place = floor at *
  generalize 4 * x.magnitude * gridUp place % gridStep place = rest at *
  -- The grid point below the double fits if it is near enough, else the one above does.
  by_cases hnear : rest < x.reach * gridUp place
  · left
    apply fits_of_lt <;> rw [marks_eq_reach]
    · simp only [Nat.sub_mul]
      omega
    · simp only [Nat.add_mul]
      omega
  · right
    apply fits_of_lt <;> rw [marks_eq_reach]
    · simp only [Nat.sub_mul, Nat.add_mul, Nat.one_mul]
      omega
    · simp only [Nat.add_mul, Nat.one_mul]
      omega

/-! ### The shortest decimal -/

/-- The shortest decimal is a grid point that fits. -/
theorem exists_shortest_eq {x : Double} (h : 0 < x.magnitude) :
    ∃ n place, x.fits place n = true ∧ x.shortest = Decimal.ofNat n place := by
  unfold shortest
  simp only
  cases hfound : (List.range 17).findSome? fun (n : Nat) =>
    (x.onGrid? (x.leadingPlace - (n : Int))).map fun found =>
      Decimal.ofNat found (x.leadingPlace - (n : Int)) with
  | none =>
    -- The search finds something by the seventeenth digit.
    rw [List.findSome?_eq_none_iff] at hfound
    have hnone := hfound 16 (List.mem_range.2 (by decide))
    obtain ⟨n, hn⟩ := Option.isSome_iff_exists.1 (onGrid?_leading h)
    simp [hn] at hnone
  | some d =>
    obtain ⟨n, -, hn⟩ := List.exists_of_findSome?_eq_some hfound
    obtain ⟨found, hgrid, rfl⟩ := Option.map_eq_some_iff.1 hn
    exact ⟨found, _, fits_of_onGrid? hgrid, rfl⟩

/-- The shortest decimal of a positive double singles it out. -/
theorem singlesOut_shortest {x : Double} (h : 0 < x.magnitude) : x.SinglesOut x.shortest.value := by
  obtain ⟨n, place, hfits, hshortest⟩ := exists_shortest_eq h
  rw [hshortest, Decimal.value_ofNat]
  exact singlesOut_of_fits hfits

theorem isDigit_of_mem_shortest {x : Double} (h : 0 < x.magnitude) {c : Char}
    (hc : c ∈ x.shortest.digits) : c.isDigit = true := by
  obtain ⟨n, place, -, hshortest⟩ := exists_shortest_eq h
  rw [hshortest] at hc
  exact Decimal.mem_digits_ofNat hc

/-- Different positive doubles have shortest decimals of different value. -/
theorem eq_of_shortest_value_eq {x y : Double} (hx : 0 < x.magnitude) (hy : 0 < y.magnitude)
    (hsign : x.negative = y.negative) (hvalue : x.shortest.value = y.shortest.value) : x = y := by
  refine eq_of_code_eq hsign (code_eq_of_singlesOut hx hy (singlesOut_shortest hx) ?_)
  rw [hvalue]
  exact singlesOut_shortest hy

end Double

end Typewright
