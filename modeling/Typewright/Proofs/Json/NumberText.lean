import Mathlib.Data.List.Basic
import Mathlib.Data.Rat.Cast.Defs
import Mathlib.Tactic.NormNum
import Typewright.Json.Number
import Typewright.Proofs.Decimal.Shortest

/-!
# Numbers are told apart by their text

The positional text of a decimal determines its value (`value_eq_of_positional_eq`), the text with
an exponent the decimal itself (`scientific_injective`); an integer has neither a point nor an
exponent.  So different numbers have different texts (`Number.toChars_injective`).
-/

namespace Typewright.Number

/-- All characters are decimal digits. -/
def Digits (cs : List Char) : Prop :=
  ∀ c ∈ cs, c.isDigit = true

namespace Digits

theorem append {cs ds : List Char} (hc : Digits cs) (hd : Digits ds) : Digits (cs ++ ds) := by
  intro c h
  rcases List.mem_append.1 h with h | h
  · exact hc c h
  · exact hd c h

theorem zeros (count : Nat) : Digits (List.replicate count '0') := by
  intro c h
  rw [List.eq_of_mem_replicate h]
  rfl

theorem ofNat (n : Nat) : Digits (Decimal.digitsOf n) := fun _ h =>
  Nat.isDigit_of_mem_toDigits (by decide) (by decide) h

theorem notMem {cs : List Char} (h : Digits cs) {c : Char} (hc : c.isDigit = false) : c ∉ cs := by
  intro hmem
  rw [h c hmem] at hc
  exact Bool.noConfusion hc

end Digits

/-! ### Positional texts -/

/-- The number written by digits before and after a point. -/
def pointValue (before after : List Char) : ℚ :=
  (Nat.ofDigitChars 10 (before ++ after) 0 : ℚ) * 10 ^ (-(after.length : Int))

/-- The text is written with a point, digits around it, and has this value. -/
def WritesPoint (text : List Char) (value : ℚ) : Prop :=
  ∃ before after, text = before ++ '.' :: after ∧ Digits before ∧ Digits after ∧ before ≠ [] ∧
    pointValue before after = value

theorem writesPoint_zero : WritesPoint ['0', '.', '0'] 0 := by
  refine ⟨['0'], ['0'], rfl, Digits.zeros 1, Digits.zeros 1, by simp, ?_⟩
  rw [pointValue, show Nat.ofDigitChars 10 (['0'] ++ ['0']) 0 = 0 from rfl]
  simp

theorem writesPoint_positional {d : Decimal} (h : Digits d.digits) :
    WritesPoint (positional d) d.value := by
  unfold positional
  split
  · next hneg =>
    -- Below one: zeros stand between the point and the digits.
    refine ⟨['0'], List.replicate (d.exponent.natAbs - 1) '0' ++ d.digits, by simp, Digits.zeros 1,
      (Digits.zeros _).append h, by simp, ?_⟩
    have hdigits : Nat.ofDigitChars 10 (['0'] ++ (List.replicate (d.exponent.natAbs - 1) '0' ++
        d.digits)) 0 = Nat.ofDigitChars 10 d.digits 0 := by
      rw [← List.append_assoc, Nat.ofDigitChars_append, Nat.ofDigitChars_append,
        Nat.ofDigitChars_replicate_zero]
      simp [Nat.ofDigitChars_cons]
    rw [pointValue, Decimal.value, hdigits]
    congr 2
    rw [List.length_append, List.length_replicate]
    omega
  · next hpos =>
    simp only
    by_cases hlong : d.digits.length ≤ d.exponent.natAbs + 1
    · -- The digits end before the point: zeros fill the gap.
      rw [List.take_of_length_le hlong, List.drop_of_length_le hlong]
      refine ⟨d.digits ++ List.replicate (d.exponent.natAbs + 1 - d.digits.length) '0', ['0'],
        by simp, h.append (Digits.zeros _), Digits.zeros 1, ?_, ?_⟩
      · intro hnil
        have := congrArg List.length hnil
        rw [List.length_append, List.length_replicate, List.length_nil] at this
        omega
      · have hexponent : d.exponent + 1 - (d.digits.length : Int) =
            ((d.exponent.natAbs + 1 - d.digits.length : Nat) : Int) := by omega
        rw [pointValue, Decimal.value, hexponent, zpow_natCast, Nat.ofDigitChars_append,
          Nat.ofDigitChars_append, Nat.ofDigitChars_replicate_zero]
        simp only [Nat.ofDigitChars_cons, Nat.ofDigitChars_nil, Nat.sub_self, Nat.add_zero,
          List.length_cons, List.length_nil]
        push_cast
        norm_num
        ring
    · -- The point stands among the digits.
      refine ⟨d.digits.take (d.exponent.natAbs + 1), d.digits.drop (d.exponent.natAbs + 1), ?_,
        fun c hc => h c (List.mem_of_mem_take hc), fun c hc => h c (List.mem_of_mem_drop hc), ?_, ?_⟩
      · rw [Nat.sub_eq_zero_of_le (by omega), if_neg (by simpa using hlong)]
        simp
      · intro hnil
        have := congrArg List.length hnil
        simp at this
        simp [this] at hlong
      · rw [pointValue, Decimal.value, List.take_append_drop, List.length_drop]
        congr 2
        omega

/-- Equal texts with a point write equal numbers. -/
theorem value_eq_of_writesPoint {text : List Char} {a b : ℚ} (ha : WritesPoint text a)
    (hb : WritesPoint text b) : a = b := by
  obtain ⟨before, after, rfl, hbefore, hafter, -, rfl⟩ := ha
  obtain ⟨before', after', heq, hbefore', hafter', -, rfl⟩ := hb
  have hpoint : ('.' : Char).isDigit = false := rfl
  obtain ⟨rfl, -, rfl⟩ :=
    (List.append_cons_inj_of_notMem (hbefore.notMem hpoint) (hafter.notMem hpoint)).1 heq
  rfl

/-! ### Texts with an exponent -/

/-- The first digit, then the others after a point. -/
def mantissa (digits : List Char) : List Char :=
  if digits.length ≤ 1 then digits else digits.take 1 ++ ['.'] ++ digits.drop 1

theorem filter_mantissa {digits : List Char} (h : Digits digits) :
    (mantissa digits).filter Char.isDigit = digits := by
  have hself : ∀ cs : List Char, Digits cs → cs.filter Char.isDigit = cs := fun cs hcs =>
    List.filter_eq_self.2 hcs
  unfold mantissa
  split
  · exact hself _ h
  · rw [List.filter_append, List.filter_append, hself _ fun c hc => h c (List.mem_of_mem_take hc),
      hself _ fun c hc => h c (List.mem_of_mem_drop hc)]
    rw [show ['.'].filter Char.isDigit = [] from rfl, List.append_nil, List.take_append_drop]

theorem notMem_mantissa {digits : List Char} (h : Digits digits) : 'e' ∉ mantissa digits := by
  have he := h.notMem (c := 'e') rfl
  unfold mantissa
  split
  · exact he
  · simp only [List.mem_append, List.mem_singleton, Char.reduceEq, not_or]
    exact ⟨⟨fun hc => he (List.mem_of_mem_take hc), not_false⟩,
      fun hc => he (List.mem_of_mem_drop hc)⟩

theorem scientific_eq (d : Decimal) :
    scientific d = mantissa d.digits ++
      'e' :: (if d.exponent < 0 then '-' else '+') :: Decimal.digitsOf d.exponent.natAbs := by
  unfold scientific mantissa
  simp

/-- The text with an exponent determines the decimal. -/
theorem scientific_injective {d d' : Decimal} (h : Digits d.digits) (h' : Digits d'.digits)
    (heq : scientific d = scientific d') : d = d' := by
  have hexponent : 'e' ∉ (if d.exponent < 0 then '-' else '+') ::
      Decimal.digitsOf d.exponent.natAbs := by
    rw [List.mem_cons, not_or]
    refine ⟨?_, (Digits.ofNat _).notMem rfl⟩
    split <;> decide
  rw [scientific_eq, scientific_eq] at heq
  -- There is just one `e`, so the two texts split at the same place.
  obtain ⟨hmantissa, -, hrest⟩ :=
    (List.append_cons_inj_of_notMem (notMem_mantissa h) hexponent).1 heq
  obtain ⟨hsign, hdigits⟩ := List.cons.inj hrest
  have hdigits' : d.digits = d'.digits := by
    rw [← filter_mantissa h, ← filter_mantissa h', hmantissa]
  have habs : d.exponent.natAbs = d'.exponent.natAbs := by
    rw [← Nat.ofDigitChars_ten_toDigits (n := d.exponent.natAbs),
      ← Nat.ofDigitChars_ten_toDigits (n := d'.exponent.natAbs)]
    exact congrArg (Nat.ofDigitChars 10 · 0) hdigits
  have hexponent' : d.exponent = d'.exponent := by
    split at hsign <;> split at hsign
    · omega
    · exact absurd hsign (by decide)
    · exact absurd hsign (by decide)
    · omega
  cases d
  cases d'
  simp_all

/-! ### Doubles -/

/-- The text of a double without its sign. -/
def unsignedText (x : Double) : List Char :=
  if x.isZero then ['0', '.', '0']
  else if layout.least ≤ x.shortest.exponent ∧ x.shortest.exponent ≤ layout.greatest then
    positional x.shortest
  else scientific x.shortest

theorem doubleText_eq (x : Double) :
    doubleText x = (if x.negative then ['-'] else []) ++ unsignedText x := by
  unfold doubleText unsignedText
  by_cases h : x.isZero = true <;> simp only [h, if_true, if_false, Bool.false_eq_true]

/-- The absolute value that the text of a double writes. -/
def shownValue (x : Double) : ℚ :=
  if x.isZero then 0 else x.shortest.value

theorem magnitude_pos_of_isZero {x : Double} (h : ¬ x.isZero = true) : 0 < x.magnitude := by
  unfold Double.isZero at h
  rw [beq_iff_eq] at h
  omega

/-- Zero is the double of code zero. -/
theorem code_eq_zero {x : Double} (h : x.isZero = true) : x.code = 0 := by
  have hnot : ¬ 0 < x.code := by
    rw [← Double.magnitude_pos_iff]
    unfold Double.isZero at h
    rw [beq_iff_eq] at h
    omega
  omega

theorem shownValue_pos {x : Double} (h : 0 < x.magnitude) : 0 < x.shortest.value :=
  Double.pos_of_singlesOut h (Double.singlesOut_shortest h)

/-- The sign and the absolute value that is written tell a double. -/
theorem shownValue_injective {x y : Double} (hsign : x.negative = y.negative)
    (h : shownValue x = shownValue y) : x = y := by
  unfold shownValue at h
  by_cases hx : x.isZero = true <;> by_cases hy : y.isZero = true
  · exact Double.eq_of_code_eq hsign ((code_eq_zero hx).trans (code_eq_zero hy).symm)
  · rw [if_pos hx, if_neg hy] at h
    exact absurd h (shownValue_pos (magnitude_pos_of_isZero hy)).ne
  · rw [if_neg hx, if_pos hy] at h
    exact absurd h (shownValue_pos (magnitude_pos_of_isZero hx)).ne'
  · rw [if_neg hx, if_neg hy] at h
    exact Double.eq_of_shortest_value_eq (magnitude_pos_of_isZero hx) (magnitude_pos_of_isZero hy)
      hsign h

/-- A double is written with a point, or its shortest decimal with an exponent. -/
theorem unsignedText_cases (x : Double) :
    WritesPoint (unsignedText x) (shownValue x) ∨
      (Digits x.shortest.digits ∧ x.shortest.digits ≠ [] ∧ x.shortest.value = shownValue x ∧
        unsignedText x = scientific x.shortest) := by
  unfold unsignedText shownValue
  by_cases hzero : x.isZero = true
  · rw [if_pos hzero, if_pos hzero]
    exact .inl writesPoint_zero
  · have hpos := magnitude_pos_of_isZero hzero
    have hdigits : Digits x.shortest.digits := fun _ hc => Double.isDigit_of_mem_shortest hpos hc
    rw [if_neg hzero, if_neg hzero]
    split
    · exact .inl (writesPoint_positional hdigits)
    -- Without digits the value would be zero.
    · refine .inr ⟨hdigits, fun hnil => ?_, rfl, rfl⟩
      have hvalue := shownValue_pos hpos
      rw [Decimal.value, hnil, Nat.ofDigitChars_nil, Nat.cast_zero, zero_mul] at hvalue
      exact lt_irrefl _ hvalue

theorem mem_scientific (d : Decimal) : 'e' ∈ scientific d := by
  unfold scientific
  simp

theorem notMem_of_writesPoint {text : List Char} {value : ℚ} (h : WritesPoint text value) :
    'e' ∉ text := by
  obtain ⟨before, after, rfl, hbefore, hafter, -, -⟩ := h
  rw [List.mem_append, List.mem_cons, not_or, not_or]
  exact ⟨hbefore.notMem rfl, by decide, hafter.notMem rfl⟩

/-- The text without the sign tells the doubles of one sign apart. -/
theorem unsignedText_injective {x y : Double} (hsign : x.negative = y.negative)
    (h : unsignedText x = unsignedText y) : x = y := by
  refine shownValue_injective hsign ?_
  rcases unsignedText_cases x with hx | ⟨hx, -, hxvalue, hxtext⟩ <;>
    rcases unsignedText_cases y with hy | ⟨hy, -, hyvalue, hytext⟩
  · rw [h] at hx
    exact value_eq_of_writesPoint hx hy
  · rw [h, hytext] at hx
    exact absurd (mem_scientific _) (notMem_of_writesPoint hx)
  · rw [← h, hxtext] at hy
    exact absurd (mem_scientific _) (notMem_of_writesPoint hy)
  · rw [hxtext, hytext] at h
    rw [← hxvalue, ← hyvalue, scientific_injective hx hy h]

/-! ### Signs -/

/-- A digit comes first. -/
def StartsWithDigit (text : List Char) : Prop :=
  ∃ c rest, text = c :: rest ∧ c.isDigit = true

theorem Digits.startsWithDigit {cs : List Char} (h : Digits cs) (hne : cs ≠ []) (rest : List Char) :
    StartsWithDigit (cs ++ rest) := by
  obtain ⟨c, cs', rfl⟩ := List.exists_cons_of_ne_nil hne
  exact ⟨c, cs' ++ rest, rfl, h c List.mem_cons_self⟩

/-- A sign before a digit can be read off. -/
theorem sign_injective {b b' : Bool} {text text' : List Char} (h : StartsWithDigit text)
    (h' : StartsWithDigit text')
    (heq : (if b then ['-'] else []) ++ text = (if b' then ['-'] else []) ++ text') :
    b = b' ∧ text = text' := by
  obtain ⟨c, rest, rfl, hc⟩ := h
  obtain ⟨c', rest', rfl, hc'⟩ := h'
  cases b <;> cases b' <;> simp at heq ⊢
  · exact heq
  · rw [heq.1] at hc
    exact absurd hc (by decide)
  · rw [← heq.1] at hc'
    exact absurd hc' (by decide)
  · exact heq

theorem startsWithDigit_mantissa {digits : List Char} (h : Digits digits) (hne : digits ≠ [])
    (rest : List Char) : StartsWithDigit (mantissa digits ++ rest) := by
  obtain ⟨c, cs, rfl⟩ := List.exists_cons_of_ne_nil hne
  have hc := h c List.mem_cons_self
  unfold mantissa
  split
  · exact ⟨c, cs ++ rest, rfl, hc⟩
  · exact ⟨c, '.' :: (cs ++ rest), by simp, hc⟩

theorem startsWithDigit_unsignedText (x : Double) : StartsWithDigit (unsignedText x) := by
  rcases unsignedText_cases x with ⟨before, after, htext, hbefore, -, hne, -⟩ | ⟨hx, hne, -, htext⟩
  · rw [htext]
    exact hbefore.startsWithDigit hne _
  · rw [htext, scientific_eq]
    exact startsWithDigit_mantissa hx hne _

theorem startsWithDigit_digitsOf (n : Nat) : StartsWithDigit (Decimal.digitsOf n) := by
  have hne : Decimal.digitsOf n ≠ [] := List.ne_nil_of_length_pos Nat.length_toDigits_pos
  simpa using (Digits.ofNat n).startsWithDigit hne []

/-- Different doubles have different texts. -/
theorem doubleText_injective {x y : Double} (h : doubleText x = doubleText y) : x = y := by
  rw [doubleText_eq, doubleText_eq] at h
  obtain ⟨hsign, htext⟩ := sign_injective (startsWithDigit_unsignedText x)
    (startsWithDigit_unsignedText y) h
  exact unsignedText_injective hsign htext

/-- Different integers have different texts. -/
theorem integerText_injective {m n : Int} (h : integerText m = integerText n) : m = n := by
  have hsign : ∀ n : Int, integerText n =
      (if decide (n < 0) then ['-'] else []) ++ Decimal.digitsOf n.natAbs := by
    intro n
    simp [integerText]
  rw [hsign, hsign] at h
  -- Digits never begin with a minus, so the sign and the digits can be told apart.
  obtain ⟨hneg, hdigits⟩ := sign_injective (startsWithDigit_digitsOf _) (startsWithDigit_digitsOf _) h
  have habs : m.natAbs = n.natAbs := by
    rw [← Nat.ofDigitChars_ten_toDigits (n := m.natAbs),
      ← Nat.ofDigitChars_ten_toDigits (n := n.natAbs)]
    exact congrArg (Nat.ofDigitChars 10 · 0) hdigits
  rw [decide_eq_decide] at hneg
  omega

/-! ### Numbers -/

/-- The text of a double has a point or an exponent. -/
theorem mem_doubleText (x : Double) : '.' ∈ doubleText x ∨ 'e' ∈ doubleText x := by
  rw [doubleText_eq]
  rcases unsignedText_cases x with ⟨before, after, htext, -⟩ | ⟨-, -, -, htext⟩
  · left
    rw [htext]
    simp
  · right
    rw [htext]
    exact List.mem_append_right _ (mem_scientific _)

/-- The text of an integer has neither. -/
theorem notMem_integerText {n : Int} {c : Char} (hc : c.isDigit = false) (hsign : c ≠ '-') :
    c ∉ integerText n := by
  unfold integerText
  rw [List.mem_append, not_or]
  refine ⟨?_, (Digits.ofNat _).notMem hc⟩
  split <;> simp [hsign]

theorem integerText_ne_doubleText (n : Int) (x : Double) : integerText n ≠ doubleText x := by
  intro h
  rcases mem_doubleText x with hmem | hmem
  · rw [← h] at hmem
    exact notMem_integerText rfl (by decide) hmem
  · rw [← h] at hmem
    exact notMem_integerText rfl (by decide) hmem

/-- Different numbers have different texts. -/
theorem toChars_injective {m n : Number} (h : m.toChars = n.toChars) : m = n := by
  cases m with
  | integer i =>
    cases n with
    | integer j => rw [integerText_injective h]
    | double y => exact absurd h (integerText_ne_doubleText i y)
  | double x =>
    cases n with
    | integer j => exact absurd h.symm (integerText_ne_doubleText j x)
    | double y => rw [doubleText_injective h]

/-! ### Where the text of a number ends -/

/-- The characters of numbers. -/
def isNumberChar (c : Char) : Bool :=
  c.isDigit || c == '.' || c == 'e' || c == '+' || c == '-'

theorem Digits.isNumberChar {cs : List Char} (h : Digits cs) {c : Char} (hc : c ∈ cs) :
    isNumberChar c = true := by
  unfold Number.isNumberChar
  rw [h c hc]
  rfl

theorem isNumberChar_of_mem_scientific {d : Decimal} (h : Digits d.digits) {c : Char}
    (hc : c ∈ scientific d) : isNumberChar c = true := by
  rw [scientific_eq, List.mem_append, List.mem_cons, List.mem_cons] at hc
  rcases hc with hc | rfl | hc | hc
  · unfold mantissa at hc
    split at hc
    · exact h.isNumberChar hc
    · rw [List.mem_append, List.mem_append, List.mem_singleton] at hc
      rcases hc with (hc | rfl) | hc
      · exact h.isNumberChar (List.mem_of_mem_take hc)
      · rfl
      · exact h.isNumberChar (List.mem_of_mem_drop hc)
  · rfl
  · rw [hc]
    split <;> rfl
  · exact (Digits.ofNat _).isNumberChar hc

theorem isNumberChar_of_mem_unsignedText {x : Double} {c : Char} (hc : c ∈ unsignedText x) :
    isNumberChar c = true := by
  rcases unsignedText_cases x with ⟨before, after, htext, hbefore, hafter, -⟩ | ⟨hx, -, -, htext⟩
  · rw [htext, List.mem_append, List.mem_cons] at hc
    rcases hc with hc | rfl | hc
    · exact hbefore.isNumberChar hc
    · rfl
    · exact hafter.isNumberChar hc
  · rw [htext] at hc
    exact isNumberChar_of_mem_scientific hx hc

theorem isNumberChar_of_mem_toChars {n : Number} {c : Char} (hc : c ∈ n.toChars) :
    isNumberChar c = true := by
  have hsign {b : Bool} {text : List Char} (htext : ∀ c ∈ text, isNumberChar c = true)
      (hc : c ∈ (if b then ['-'] else []) ++ text) : isNumberChar c = true := by
    rcases List.mem_append.1 hc with hc | hc
    · cases b <;> simp at hc
      rw [hc]
      rfl
    · exact htext c hc
  cases n with
  | integer i =>
    refine hsign (b := decide (i < 0)) (fun _ => (Digits.ofNat i.natAbs).isNumberChar) ?_
    simpa [toChars, integerText] using hc
  | double x =>
    rw [toChars, doubleText_eq] at hc
    exact hsign (fun _ => isNumberChar_of_mem_unsignedText) hc

/-- A sign or a digit comes first. -/
theorem exists_toChars_eq_cons (n : Number) :
    ∃ c rest, n.toChars = c :: rest ∧ (c = '-' ∨ c.isDigit = true) := by
  have hsign {b : Bool} {text : List Char} (htext : StartsWithDigit text) :
      ∃ c rest, (if b then ['-'] else []) ++ text = c :: rest ∧ (c = '-' ∨ c.isDigit = true) := by
    obtain ⟨c, rest, rfl, hc⟩ := htext
    cases b
    · exact ⟨c, rest, rfl, .inr hc⟩
    · exact ⟨'-', c :: rest, rfl, .inl rfl⟩
  cases n with
  | integer i =>
    have := hsign (b := decide (i < 0)) (startsWithDigit_digitsOf i.natAbs)
    simpa [toChars, integerText] using this
  | double x =>
    rw [toChars, doubleText_eq]
    exact hsign (startsWithDigit_unsignedText x)

end Typewright.Number
