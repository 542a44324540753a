import Typewright.Text.Width.Class

/-!
# Width of a text on a terminal

A character takes two columns if it is wide, as most characters of East Asian scripts are, none
if it is a mark, and one otherwise.  Some characters are shown as one, and then the width of the
text is not the sum of the widths: letters that form a ligature, pictographs with joiners between
them, and characters with a selector for their form.

A text is measured from its end, since the width of a character may depend on those after it: a
`Following` is what has to be known of them.  A text of ASCII characters takes one column for
each (`width_eq_length`).
-/

namespace Typewright.Text

/-! ### Single characters -/

/-- The number of columns that a character takes on its own. -/
def charWidth (c : Char) : Nat :=
  if c.toNat ≤ 0xA0 then 1
  else if c.toNat = 0x17D8 then 3
  else if isInRanges markRanges c then 0
  else if isInRanges wideRanges c then 2
  else 1

/-- The joiner, which makes one sign of the signs around it. -/
def isJoiner (c : Char) : Bool :=
  c.toNat == 0x200D

/-- Marks that are not shown; they do not come between the letters of a ligature. -/
def isHiddenMark (c : Char) : Bool :=
  isInRanges [(0x34F, 0x34F), (0x17B4, 0x17B5), (0x180B, 0x180D), (0x180F, 0x180F),
    (0xFE00, 0xFE0F), (0xE0100, 0xE01EF)] c

/-- Marks that do not come between two Arabic letters. -/
def isArabicMark (c : Char) : Bool :=
  isInRanges markRanges c && !isInRanges dividingMarkRanges c

/-- The forms of the Arabic letter alef. -/
def isAlef (c : Char) : Bool :=
  isInRanges [(0x622, 0x623), (0x625, 0x625), (0x627, 0x627), (0x671, 0x673), (0x675, 0x675),
    (0x773, 0x774), (0x870, 0x882)] c

/-- The forms of the Arabic letter lam. -/
def isLam (c : Char) : Bool :=
  isInRanges [(0x644, 0x644), (0x6B5, 0x6B8), (0x76A, 0x76A), (0x8A6, 0x8A6), (0x8C7, 0x8C7)] c

/-- The consonants of Tifinagh. -/
def isTifinaghConsonant (c : Char) : Bool :=
  isInRanges [(0x2D31, 0x2D65), (0x2D6F, 0x2D6F)] c

/-- The Khmer letters that can be written below another one. -/
def isKhmerSubscript (c : Char) : Bool :=
  isInRanges [(0x1780, 0x1782), (0x1784, 0x1787), (0x1789, 0x178C), (0x178E, 0x1793),
    (0x1795, 0x1798), (0x179B, 0x179D), (0x17A0, 0x17A0), (0x17A2, 0x17A2), (0x17A7, 0x17A7),
    (0x17AB, 0x17AC), (0x17AF, 0x17AF)] c

/-- The quotation marks that have a wide form. -/
def isQuotationMark (c : Char) : Bool :=
  isInRanges [(0x2018, 0x2019), (0x201C, 0x201D)] c

/-- The letters that spell the code of a country; two of them make a flag. -/
def isRegionalIndicator (c : Char) : Bool :=
  isInRanges [(0x1F1E6, 0x1F1FF)] c

/-- The skin tones. -/
def isSkinTone (c : Char) : Bool :=
  isInRanges [(0x1F3FB, 0x1F3FF)] c

/-- The letters that spell the code of a region behind a flag. -/
def isTagLetter (c : Char) : Bool :=
  isInRanges [(0xE0061, 0xE007A)] c

/-- The digits that spell the code of a region behind a flag. -/
def isTagDigit (c : Char) : Bool :=
  isInRanges [(0xE0030, 0xE0039)] c

/-! ### What follows a character -/

/-- The end of a ligature. -/
inductive Ligature where
  /-- The Hebrew letter lamed. -/
  | lamed
  /-- The Khmer letters that can be written below another one. -/
  | subscript
  /-- The Buginese letter ya. -/
  | ya
  /-- The Buginese letter ya after the vowel i and a joiner. -/
  | vowelYa
  /-- A consonant of Tifinagh. -/
  | consonant
  /-- A consonant of Tifinagh after the sign that joins consonants. -/
  | joinedConsonant
  /-- The second half of a tone of Lisu. -/
  | tone
  /-- The Old Turkic letter i. -/
  | orkhonI
deriving DecidableEq, Repr

/-- What a text starts with, as far as it can change the width of a character before it. -/
inductive Start where
  /-- Nothing that matters. -/
  | plain
  /-- An end of a ligature, maybe after a joiner. -/
  | ligature (last : Ligature) (joined : Bool)
  /-- The Arabic letter alef. -/
  | alef
  /-- A vowel sign of Kirat Rai that a sign before it may be a part of. -/
  | vowelE
  /-- Two such vowel signs, or the sign for both. -/
  | vowelAi
  /-- A skin tone. -/
  | skinTone
  /-- One regional indicator, or several. -/
  | indicators (several : Bool)
  /-- A pictograph. -/
  | emoji
  /-- A joiner and a pictograph. -/
  | joinedEmoji
  /-- The mark of a keycap, a joiner and a pictograph. -/
  | joinedKeycap
  /-- So many regional indicators, a joiner and a pictograph. -/
  | joinedIndicators (count : Nat)
  /-- So many letters of a region, their end, a joiner and a pictograph. -/
  | joinedTagLetters (count : Nat)
  /-- So many digits of a region, maybe letters, their end, a joiner and a pictograph. -/
  | joinedTagDigits (count : Nat)
deriving DecidableEq, Repr

/-- A character that selects a form of the character before it. -/
inductive Selector where
  /-- The pictograph. -/
  | emoji
  /-- The text. -/
  | text
  /-- The wide quotation mark. -/
  | wide
deriving DecidableEq, Repr

/-- The selector that a character is. -/
def Selector.ofChar? (c : Char) : Option Selector :=
  if c.toNat = 0xFE0F then some .emoji
  else if c.toNat = 0xFE0E then some .text
  else if c.toNat = 0xFE01 then some .wide
  else none

/-- What is known of the text after a character. -/
structure Following where
  /-- What the text starts with, behind the selector. -/
  start : Start := .plain
  /-- The selector that it starts with. -/
  selector : Option Selector := none
deriving DecidableEq, Repr

namespace Start

/-- Whether the text starts with the end of a ligature. -/
def isLigature : Start → Bool
  | ligature .. | alef => true
  | _ => false

/-- Whether the text starts with a joiner and a pictograph, or with the mark of a keycap before
    them. -/
def isJoined : Start → Bool
  | joinedEmoji | joinedKeycap => true
  | _ => false

/-- What a text starts with when it starts with a character that joins nothing after it. -/
def ofChar (c : Char) : Start :=
  if c.toNat = 0x5DC then ligature .lamed false
  else if isAlef c then alef
  else if isKhmerSubscript c then ligature .subscript false
  else if c.toNat = 0x1A10 then ligature .ya false
  else if isTifinaghConsonant c then ligature .consonant false
  else if c.toNat = 0xA4FC || c.toNat = 0xA4FD then ligature .tone false
  else if c.toNat = 0x10C03 then ligature .orkhonI false
  else if c.toNat = 0x16D67 then vowelE
  else if c.toNat = 0x16D68 then vowelAi
  else if isRegionalIndicator c then indicators false
  else if isSkinTone c then skinTone
  else if isInRanges emojiRanges c then emoji
  else plain

end Start

/-! ### Ligatures -/

/-- The columns that a character adds before the end of a ligature, maybe with a joiner between
    them, if the two belong together. -/
def Ligature.before? (c : Char) (joined : Bool) : Ligature → Option (Int × Start)
  | lamed => if joined && c.toNat = 0x5D0 then some (0, .plain) else none
  | subscript => if c.toNat = 0x17D2 then some (-1, .plain) else none
  | ya => if joined && c.toNat = 0x1A17 then some (0, .ligature .vowelYa true) else none
  | vowelYa => if c.toNat = 0x1A15 then some (0, .plain) else none
  | consonant =>
    if c.toNat = 0x2D7F then some (1, .ligature .joinedConsonant true)
    else if joined && isTifinaghConsonant c then some (0, .plain)
    else none
  | joinedConsonant => if isTifinaghConsonant c then some (-1, .plain) else none
  | tone => if isInRanges [(0xA4F8, 0xA4FB)] c then some (0, .plain) else none
  | orkhonI => if joined && c.toNat = 0x10C32 then some (0, .plain) else none

namespace Start

/-- The columns that a character adds before the end of a ligature, if it belongs to it. -/
def beforeLigature? (c : Char) : Start → Option (Int × Start)
  | ligature last joined =>
    if isJoiner c then some (0, ligature last true)
    else if isHiddenMark c then some (0, ligature last joined)
    else last.before? c joined
  | alef =>
    if isLam c then some (0, plain)
    else if isArabicMark c then some (0, alef)
    else none
  | vowelE =>
    if c.toNat = 0x16D63 || c.toNat = 0x16D69 then some (0, plain)
    else if c.toNat = 0x16D67 then some (0, vowelAi)
    else if c.toNat = 0x16D68 then some (1, vowelE)
    else none
  | vowelAi => if c.toNat = 0x16D63 then some (0, plain) else none
  | _ => none

/-! ### Pictographs -/

/-- Whether the text starts with what a joiner can join to a pictograph before it. -/
def isJoinable : Start → Bool
  | emoji | skinTone | indicators true => true
  | joinedIndicators count => 2 ≤ count
  | _ => false

/-- The columns that a character adds before a joiner and a pictograph. -/
def beforeJoined? (c : Char) : Option (Int × Start) :=
  if c.toNat = 0x20E3 then some (0, joinedKeycap)
  else if isRegionalIndicator c then some (1, joinedIndicators 1)
  else if isSkinTone c then some (0, skinTone)
  else if c.toNat = 0xE007F then some (0, joinedTagLetters 0)
  else if isInRanges emojiRanges c then some (0, emoji)
  else none

/-- The columns that a character adds before parts of a pictograph, if it belongs to it.  Regional
    indicators make flags two by two from the first one on, so one more changes all pairs. -/
def beforeEmoji? (c : Char) : Start → Option (Int × Start)
  | skinTone => if isInRanges modifiableRanges c then some (0, emoji) else none
  | indicators _ => if isRegionalIndicator c then some (1, indicators true) else none
  | joinedEmoji => beforeJoined? c
  | joinedIndicators count =>
    if isRegionalIndicator c then
      some (if count % 2 = 1 then -1 else 3, joinedIndicators (count + 1))
    else none
  | joinedTagLetters count =>
    if isTagLetter c && count < 6 then some (0, joinedTagLetters (count + 1))
    else if isTagDigit c && count < 5 then some (0, joinedTagDigits 1)
    else if c.toNat = 0x1F3F4 && 3 ≤ count then some (0, emoji)
    else none
  | joinedTagDigits count =>
    if isTagDigit c && count < 3 then some (0, joinedTagDigits (count + 1))
    else if c.toNat = 0x1F3F4 && count = 3 then some (0, emoji)
    else none
  | _ => none

/-- The columns that a character adds before a text without a selector at its start. -/
def before (c : Char) (start : Start) : Int × Start :=
  if isJoiner c && start.isJoinable then (0, joinedEmoji)
  else
    ((start.beforeLigature? c).or (start.beforeEmoji? c)).getD (charWidth c, ofChar c)

end Start

/-! ### Texts -/

namespace Following

/-- The text behind a selector.  A selector comes between the character before it and the text
    after it, except for the end of a ligature, and for a joiner if it selects a pictograph. -/
def select (following : Following) (selector : Selector) : Following :=
  let kept := following.start.isLigature || (selector = .emoji && following.start.isJoined)
  { start := if kept then following.start else .plain, selector := some selector }

/-- The text without a selector that does not apply to the character before it. -/
def unselect (following : Following) : Following :=
  { start := if following.start.isLigature then following.start else .plain }

/-- The columns that a character adds before a text, and what the longer text starts with. -/
def before (c : Char) (following : Following) : Int × Following :=
  if following.selector = some .emoji && isInRanges selectableRanges c then
    (if following.start.isJoined then 0 else 2, { start := .emoji })
  else if c.toNat ≤ 0xA0 then (1, {})
  else
    let following := if following.selector = some .emoji then following.unselect else following
    match Selector.ofChar? c with
    | some selector => (0, following.select selector)
    | none =>
      if following.selector = some .text && isInRanges narrowableRanges c then (1, {})
      else if following.selector = some .wide && isQuotationMark c then (2, {})
      else
        let (columns, start) := following.start.before c
        (columns, { start })

end Following

/-- The number of columns that a text takes, and what it starts with. -/
def measure (cs : List Char) : Int × Following :=
  cs.foldr (fun c (columns, following) =>
    let (more, following) := following.before c
    (columns + more, following)) (0, {})

/-- The number of columns that a text of one line takes. -/
def width (cs : List Char) : Nat :=
  (measure cs).1.toNat

/-- A text of ASCII characters takes one column for each, and nothing before it depends on it. -/
theorem measure_of_ascii {cs : List Char} (h : ∀ c ∈ cs, c.toNat < 0x80) :
    measure cs = ((cs.length : Int), {}) := by
  induction cs with
  | nil => rfl
  | cons c rest ih =>
    have hc : c.toNat ≤ 0xA0 := by have := h c (by simp); omega
    have hr : measure rest = ((rest.length : Int), {}) := ih fun d hd => h d (by simp [hd])
    have hb : Following.before c {} = (1, {}) := by simp [Following.before, hc]
    calc measure (c :: rest)
        = ((measure rest).1 + (Following.before c (measure rest).2).1,
            (Following.before c (measure rest).2).2) := rfl
      _ = (((c :: rest).length : Int), {}) := by rw [hr, hb]; simp

/-- A text of ASCII characters takes one column for each. -/
theorem width_eq_length {cs : List Char} (h : ∀ c ∈ cs, c.toNat < 0x80) :
    width cs = cs.length := by
  rw [width, measure_of_ascii h]
  simp

end Typewright.Text
