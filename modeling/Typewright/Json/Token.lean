import Typewright.Json.Basic
import Typewright.Text.Natural

/-!
# Tokens of a JSON text

`Json.Token.scan` cuts a JSON text into brackets, commas, colons, strings, numbers and the three
words.  A number without a point and without an exponent that fits 64 bits is an integer; any
other number is a double, got from at most 64 bits of its digits and a power of ten.
-/

namespace Typewright.Json

/-- A token of a JSON text. -/
inductive Token where
  | openArray
  | closeArray
  | openObject
  | closeObject
  | comma
  | colon
  | string (text : String)
  /-- A number or one of the words `null`, `true` and `false`. -/
  | scalar (value : Json)
deriving Repr

/-- The blanks between tokens. -/
def isSpace (c : Char) : Bool :=
  c = ' ' || c = '\n' || c = '\t' || c = '\r'

/-- The decimal digits. -/
def isDigit (c : Char) : Bool :=
  '0' ≤ c && c ≤ '9'

/-! ### Strings -/

/-- Four hexadecimal digits and what follows them. -/
def hex4? : List Char → Option (Nat × List Char)
  | a :: b :: c :: d :: rest => (Text.natIn? 16 [a, b, c, d]).map (·, rest)
  | _ => none

/-- The second half of a character written as two escapes: its lower ten bits. -/
def lowHalf? : List Char → Option (Nat × List Char)
  | '\\' :: 'u' :: rest =>
    match hex4? rest with
    | some (n, rest) => if 0xDC00 ≤ n ∧ n < 0xE000 then some (n - 0xDC00, rest) else none
    | none => none
  | _ => none

/-- The character that the four digits after an escaping `u` write, if need be together with a
    second such escape. -/
def unicode? (cs : List Char) : Option (Char × List Char) :=
  match hex4? cs with
  | none => none
  | some (n, rest) =>
    if 0xDC00 ≤ n ∧ n < 0xE000 then none
    else if 0xD800 ≤ n ∧ n < 0xDC00 then
      match lowHalf? rest with
      | some (low, rest) => some (Char.ofNat (0x10000 + (n - 0xD800) * 0x400 + low), rest)
      | none => none
    else some (Char.ofNat n, rest)

/-- The character that follows a backslash stands for. -/
def escape? : List Char → Option (Char × List Char)
  | '"' :: rest => some ('"', rest)
  | '\\' :: rest => some ('\\', rest)
  | '/' :: rest => some ('/', rest)
  | 'b' :: rest => some (Char.ofNat 0x08, rest)
  | 'f' :: rest => some (Char.ofNat 0x0C, rest)
  | 'n' :: rest => some ('\n', rest)
  | 'r' :: rest => some ('\r', rest)
  | 't' :: rest => some ('\t', rest)
  | 'u' :: rest => unicode? rest
  | _ => none

/-- Four hexadecimal digits are taken off the front. -/
theorem hex4?_length {cs rest : List Char} {n : Nat} (h : hex4? cs = some (n, rest)) :
    rest.length < cs.length := by
  unfold hex4? at h
  split at h
  · obtain ⟨m, _, hm⟩ := Option.map_eq_some_iff.1 h
    cases hm
    simp only [List.length_cons]
    omega
  · cases h

/-- The second half of a pair takes its own escape. -/
theorem lowHalf?_length {cs rest : List Char} {n : Nat} (h : lowHalf? cs = some (n, rest)) :
    rest.length < cs.length := by
  unfold lowHalf? at h
  split at h
  · split at h
    · next m after hm =>
      split at h
      · simp only [Option.some.injEq, Prod.mk.injEq] at h
        have := hex4?_length hm
        simp only [List.length_cons, ← h.2]
        omega
      · cases h
    · cases h
  · cases h

theorem unicode?_length {cs rest : List Char} {c : Char} (h : unicode? cs = some (c, rest)) :
    rest.length < cs.length := by
  unfold unicode? at h
  split at h
  · cases h
  · next n after hn =>
    have := hex4?_length hn
    split at h
    · cases h
    · split at h
      · split at h
        · next hlow =>
          cases h
          have := lowHalf?_length hlow
          omega
        · cases h
      · cases h
        omega

theorem escape?_length {cs rest : List Char} {c : Char} (h : escape? cs = some (c, rest)) :
    rest.length < cs.length := by
  unfold escape? at h
  split at h
  case h_9 =>
    have := unicode?_length h
    simp only [List.length_cons]
    omega
  all_goals cases h <;> simp

/-- The rest of a string after its opening quote; `done` is what has been read, last first. -/
def stringBody (done : List Char) (cs : List Char) : Option (String × List Char) :=
  match cs with
  | [] => none
  | c :: rest =>
    if c = '"' then some (String.ofList done.reverse, rest)
    else if c = '\\' then
      match h : escape? rest with
      | some (escaped, after) =>
        have := escape?_length h
        stringBody (escaped :: done) after
      | none => none
    else if c.toNat < 0x20 then none
    else stringBody (c :: done) rest
termination_by cs.length
decreasing_by
  all_goals simp only [List.length_cons]
  all_goals omega

theorem stringBody_length {done cs rest : List Char} {s : String}
    (h : stringBody done cs = some (s, rest)) : rest.length < cs.length := by
  fun_induction stringBody done cs with
  | case1 => cases h
  | case2 => cases h; simp
  | case3 done tail escaped after hesc hlen _ ih =>
    have := ih h
    simp only [List.length_cons]
    omega
  | case4 => cases h
  | case5 => cases h
  | case6 done c tail _ _ _ ih =>
    have := ih h
    simp only [List.length_cons]
    omega

/-! ### Numbers -/

/-- The parts of a written number. -/
structure NumberParts where
  negative : Bool
  whole : List Char
  fraction : Option (List Char)
  exponent : Option Int

/-- The value of a digit. -/
def digitValue (c : Char) : Nat :=
  c.toNat - '0'.toNat

/-- The number that a list of digits writes. -/
def digitsValue (cs : List Char) : Nat :=
  cs.foldl (fun n c => n * 10 + digitValue c) 0

/-- Digits are taken as long as the number they write fits 64 bits; gives that number and the
    digits left out. -/
def takeWord (n : Nat) : List Char → Nat × List Char
  | [] => (n, [])
  | c :: rest =>
    let next := n * 10 + digitValue c
    if next < 0x10000000000000000 then takeWord next rest else (n, c :: rest)

/-- The number that the parts write, unless it lies beyond the doubles. -/
def NumberParts.value? (parts : NumberParts) : Option Number :=
  let (word, dropped) := takeWord 0 parts.whole
  let double? (significand : Nat) (exponent : Int) : Option Number :=
    (Decimal.scaled? significand exponent).map fun x =>
      .double (if parts.negative then x.neg else x)
  match parts.fraction, parts.exponent with
  | none, none =>
    if !dropped.isEmpty then double? word dropped.length
    else if !parts.negative then some (.integer word)
    else if 0 < word ∧ word ≤ 0x8000000000000000 then some (.integer (-(word : Int)))
    else double? word 0
  | none, some exponent => double? word (dropped.length + exponent)
  | some fraction, exponent? =>
    let (word, left) := takeWord word fraction
    let used := fraction.length - left.length
    double? word ((dropped.length : Int) - used + exponent?.getD 0)

/-- A run of digits, of which there must be one, and what follows it. -/
def digits? (cs : List Char) : Option (List Char × List Char) :=
  let run := cs.takeWhile isDigit
  if run.isEmpty then none else some (run, cs.dropWhile isDigit)

/-- The fraction of a number, if one follows; a point must be followed by a digit. -/
def fraction? : List Char → Option (Option (List Char) × List Char)
  | '.' :: rest => (digits? rest).map fun (run, rest) => (some run, rest)
  | cs => some (none, cs)

/-- The exponent of a number, if one follows. -/
def exponent? : List Char → Option (Option Int × List Char)
  | c :: rest =>
    if c = 'e' ∨ c = 'E' then
      let (negative, rest) :=
        match rest with
        | '+' :: rest => (false, rest)
        | '-' :: rest => (true, rest)
        | _ => (false, rest)
      (digits? rest).map fun (run, rest) =>
        let n : Int := digitsValue run
        (some (if negative then -n else n), rest)
    else some (none, c :: rest)
  | [] => some (none, [])

/-- A number at the start of a text.  A zero that leads other digits is refused. -/
def number? (cs : List Char) : Option (Number × List Char) := do
  let (negative, rest) :=
    match cs with
    | '-' :: rest => (true, rest)
    | _ => (false, cs)
  let (whole, rest) ← digits? rest
  if 1 < whole.length ∧ whole.head? = some '0' then none
  else
    let (fraction, rest) ← fraction? rest
    let (exponent, rest) ← exponent? rest
    let value ← NumberParts.value? { negative, whole, fraction, exponent }
    some (value, rest)

/-! ### Scanning -/

/-- The token at the start of a text that starts with no blank. -/
def Token.next? : List Char → Option (Token × List Char)
  | '[' :: rest => some (.openArray, rest)
  | ']' :: rest => some (.closeArray, rest)
  | '{' :: rest => some (.openObject, rest)
  | '}' :: rest => some (.closeObject, rest)
  | ',' :: rest => some (.comma, rest)
  | ':' :: rest => some (.colon, rest)
  | '"' :: rest => (stringBody [] rest).map fun (s, rest) => (.string s, rest)
  | 'n' :: 'u' :: 'l' :: 'l' :: rest => some (.scalar .null, rest)
  | 't' :: 'r' :: 'u' :: 'e' :: rest => some (.scalar (.bool true), rest)
  | 'f' :: 'a' :: 'l' :: 's' :: 'e' :: rest => some (.scalar (.bool false), rest)
  | cs => (number? cs).map fun (n, rest) => (.scalar (.number n), rest)

theorem digits?_length {cs run rest : List Char} (h : digits? cs = some (run, rest)) :
    rest.length < cs.length := by
  unfold digits? at h
  simp only at h
  split at h
  · cases h
  · next hrun =>
    cases h
    have hsum := congrArg List.length (List.takeWhile_append_dropWhile (p := isDigit) (l := cs))
    have hpos : 0 < (cs.takeWhile isDigit).length := by
      cases hl : cs.takeWhile isDigit with
      | nil => simp [hl] at hrun
      | cons _ _ => simp
    simp only [List.length_append] at hsum
    omega

/-- A fraction may be missing, and then leaves everything. -/
theorem fraction?_length {cs rest : List Char} {f : Option (List Char)}
    (h : fraction? cs = some (f, rest)) : rest.length ≤ cs.length := by
  unfold fraction? at h
  split at h
  · obtain ⟨⟨run, after⟩, hd, he⟩ := Option.map_eq_some_iff.1 h
    cases he
    have := digits?_length hd
    simp only [List.length_cons]
    omega
  · cases h
    exact Nat.le_refl _

/-- An exponent may be missing, and then leaves everything. -/
theorem exponent?_length {cs rest : List Char} {e : Option Int}
    (h : exponent? cs = some (e, rest)) : rest.length ≤ cs.length := by
  unfold exponent? at h
  split at h
  · next c tail =>
    split at h
    · obtain ⟨⟨run, after⟩, hd, he⟩ := Option.map_eq_some_iff.1 h
      cases he
      have hlen := digits?_length hd
      simp only [List.length_cons]
      split at hlen <;> simp_all only [List.length_cons] <;> omega
    · cases h
      exact Nat.le_refl _
  · cases h
    exact Nat.le_refl _

/-- A number has at least the digits before its fraction. -/
theorem number?_length {cs rest : List Char} {n : Number} (h : number? cs = some (n, rest)) :
    rest.length < cs.length := by
  unfold number? at h
  simp only [Option.bind_eq_bind, Option.bind_eq_some_iff] at h
  obtain ⟨⟨whole, after⟩, hw, h⟩ := h
  have hlen : after.length < cs.length := by
    have hdigits := digits?_length hw
    split at hdigits
    · exact Nat.lt_succ_of_lt hdigits
    · exact hdigits
  split at h
  · cases h
  · simp only [Option.bind_eq_some_iff] at h
    obtain ⟨⟨f, after₁⟩, hf, ⟨e, after₂⟩, he, value, _, hrest⟩ := h
    cases hrest
    have := fraction?_length hf
    have := exponent?_length he
    simp only at *
    omega

/-- A token takes at least one character. -/
theorem Token.next?_length {cs rest : List Char} {t : Token} (h : Token.next? cs = some (t, rest)) :
    rest.length < cs.length := by
  unfold Token.next? at h
  split at h
  case h_7 =>
    obtain ⟨⟨s, after⟩, hs, he⟩ := Option.map_eq_some_iff.1 h
    cases he
    have := stringBody_length hs
    simp only [List.length_cons]
    omega
  case h_11 =>
    obtain ⟨⟨n, after⟩, hn, he⟩ := Option.map_eq_some_iff.1 h
    cases he
    exact number?_length hn
  all_goals
    cases h
    simp only [List.length_cons]
    omega

/-- The tokens of a text. -/
def Token.scan (cs : List Char) : Option (List Token) :=
  match cs with
  | [] => some []
  | c :: rest =>
    if isSpace c then Token.scan rest
    else
      match h : Token.next? (c :: rest) with
      | some (token, after) =>
        have := Token.next?_length h
        (Token.scan after).map (token :: ·)
      | none => none
termination_by cs.length
decreasing_by
  all_goals simp_all only [List.length_cons]
  all_goals omega

end Typewright.Json
