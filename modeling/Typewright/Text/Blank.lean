/-!
# White space and lines

The characters of the Unicode property White_Space, trimming by it, and the lines of a text.
-/

namespace Typewright.Text

/-! ### White space -/

/-- The characters of the Unicode property White_Space. -/
def isBlank (c : Char) : Bool :=
  let n := c.toNat
  (0x9 ≤ n && n ≤ 0xD) || n == 0x20 || n == 0x85 || n == 0xA0 || n == 0x1680
    || (0x2000 ≤ n && n ≤ 0x200A) || n == 0x2028 || n == 0x2029 || n == 0x202F || n == 0x205F
    || n == 0x3000

/-- Whether the text holds nothing but white space. -/
def isBlankText (s : String) : Bool :=
  s.toList.all isBlank

/-- The text without the white space at its end. -/
def trimEnd (s : String) : String :=
  String.ofList (s.toList.reverse.dropWhile isBlank).reverse

/-! ### Lines -/

/-- Splits at every character equal to `separator`; the empty list is one empty piece. -/
def splitOnChar (separator : Char) : List Char → List (List Char)
  | [] => [[]]
  | c :: rest =>
    if c = separator then [] :: splitOnChar separator rest
    else
      match splitOnChar separator rest with
      | piece :: pieces => (c :: piece) :: pieces
      | [] => [[c]]

/-- A line without the carriage return that ends it, if one does. -/
def dropCarriageReturn (line : List Char) : List Char :=
  match line.reverse with
  | '\r' :: rest => rest.reverse
  | _ => line

/-- The lines of a text.  A line feed ends a line, together with a carriage return right before
    it; a last line that is empty is left out, and a last line that no line feed ends keeps its
    carriage return. -/
def lines (s : String) : List String :=
  let pieces := splitOnChar '\n' s.toList
  let ended := pieces.dropLast.map dropCarriageReturn
  let last := pieces.getLast?.getD []
  (if last.isEmpty then ended else ended ++ [last]).map String.ofList

/-- A split has at least one piece. -/
theorem splitOnChar_ne_nil (separator : Char) (cs : List Char) :
    splitOnChar separator cs ≠ [] := by
  cases cs with
  | nil => simp [splitOnChar]
  | cons c rest =>
    unfold splitOnChar
    split
    · simp
    · split <;> simp

/-- No piece of a split holds the separator. -/
theorem not_mem_of_mem_splitOnChar {separator : Char} {cs piece : List Char}
    (h : piece ∈ splitOnChar separator cs) : separator ∉ piece := by
  induction cs generalizing piece with
  | nil => simp_all [splitOnChar]
  | cons c rest ih =>
    unfold splitOnChar at h
    split at h
    · rcases List.mem_cons.1 h with rfl | h
      · simp
      · exact ih h
    · next hc =>
      split at h
      · next first others hs =>
        rcases List.mem_cons.1 h with rfl | h
        · have : separator ∉ first := ih (by simp [hs])
          simp [this, Ne.symm hc]
        · exact ih (by simp [hs, h])
      · next hs => exact absurd hs (splitOnChar_ne_nil _ _)

end Typewright.Text
