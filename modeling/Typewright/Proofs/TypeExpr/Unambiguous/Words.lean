import Typewright.Proofs.Json.Text
import Typewright.Proofs.Naming.Identifier
import Typewright.Proofs.Text.Joined
import Typewright.Proofs.TypeExpr.WellFormed

/-!
# How the text of a type starts, and where it ends

The first character of a text tells the class of the type that it starts with (`exists_lead`).  A word,
which is a keyword, a number or a path, goes on up to a character that it cannot contain, so the word
and what follows it are told apart (`keyword_append_injective`, `path_injective`).
-/

namespace Typewright

namespace Naming

theorem isUpper_iff {c : Char} : c.isUpper = true ↔ 65 ≤ c.toNat ∧ c.toNat ≤ 90 := by
  have hupper : c.isUpper = decide (c.val ≥ 'A'.val ∧ c.val ≤ 'Z'.val) := rfl
  simp [hupper, UInt32.le_iff_toNat_le, ← Char.toNat_val]

theorem isLower_iff {c : Char} : c.isLower = true ↔ 97 ≤ c.toNat ∧ c.toNat ≤ 122 := by
  have hlower : c.isLower = (decide (c.val ≥ 'a'.val) && decide (c.val ≤ 'z'.val)) := rfl
  simp [hlower, UInt32.le_iff_toNat_le, ← Char.toNat_val]

/-- An identifier starts with a capital letter or an underscore; letters and digits follow. -/
theorem exists_identifier_eq (text : String) :
    ∃ c rest, (identifier text).toList = c :: rest ∧ (c = '_' ∨ c.isUpper = true) ∧
      ∀ d ∈ rest, isLetter d = true ∨ isDigit d = true := by
  obtain ⟨hchars, hhead⟩ := isWord_capitalizeWords text.toList
  rw [identifier, String.toList_ofList, identifierChars]
  cases hwords : capitalizeWords true text.toList with
  | nil => exact ⟨'U', _, rfl, by decide, fun d hd => .inl (List.all_eq_true.1 (by decide) d hd)⟩
  | cons c rest =>
    rw [hwords] at hchars hhead
    rw [completeIdentifier]
    split
    · exact ⟨'_', c :: rest, rfl, .inl rfl, hchars⟩
    · next hdigit =>
      refine ⟨c, rest, rfl, .inr ?_, fun d hd => hchars d (List.mem_cons_of_mem _ hd)⟩
      have hletter := isLetter_iff.1 ((hchars c List.mem_cons_self).resolve_right hdigit)
      have hupper : c.toUpper.toNat = c.toNat := congrArg Char.toNat (hhead c rfl)
      rw [toNat_toUpper] at hupper
      rw [isUpper_iff]
      split at hupper <;> omega

end Naming

namespace TypeExpr

/-! ### What can follow a type -/

/-- Nothing follows, or a character that ends a word. -/
def Breaks (rest : List Char) : Prop :=
  ∀ c ∈ rest.head?, c ∈ [' ', '>', ']', ',', ';', ')', '[']

/-- Nothing follows, or a character that ends a factor. -/
def EndsFactor (rest : List Char) : Prop :=
  ∀ c ∈ rest.head?, c ∈ [' ', '>', ']', ',', ';', ')']

/-- What follows ends a term: no other factor comes. -/
def EndsTerm (rest : List Char) : Prop :=
  EndsFactor rest ∧ ∀ more, rest ≠ [' ', '&', ' '] ++ more

/-- What follows ends a type: no other term comes. -/
def Ends (rest : List Char) : Prop :=
  EndsTerm rest ∧ ∀ more, rest ≠ [' ', '|', ' '] ++ more

theorem EndsFactor.breaks {rest : List Char} (h : EndsFactor rest) : Breaks rest :=
  fun c hc => List.mem_append_left ['['] (h c hc)

/-- What breaks off a word goes on to do so when more is written behind it. -/
theorem breaks_append {tail rest : List Char} (htail : Breaks tail) (hrest : Breaks rest) :
    Breaks (tail ++ rest) := by
  cases tail with
  | nil => exact hrest
  | cons c tail => exact htail

/-- A closing bracket or a separator ends a type. -/
theorem ends_cons {c : Char} {rest : List Char} (h : c ∈ ['>', ']', ',', ';', ')']) :
    Ends (c :: rest) := by
  have hspace : c ≠ ' ' := by
    rintro rfl
    exact absurd h (by decide)
  refine ⟨⟨fun d hd => ?_, fun more hmore => hspace (List.cons.inj hmore).1⟩,
    fun more hmore => hspace (List.cons.inj hmore).1⟩
  rw [← Option.some.inj hd]
  exact List.mem_cons_of_mem _ h

/-- The closing brace of an object type, which stands behind a blank, ends a type. -/
theorem ends_brace (rest : List Char) : Ends (' ' :: '}' :: rest) := by
  refine ⟨⟨fun c hc => ?_, fun more hmore => ?_⟩, fun more hmore => ?_⟩
  · rw [← Option.some.inj hc]
    exact List.mem_cons_self
  · simp at hmore
  · simp at hmore

/-- The end of the text ends a type too. -/
theorem ends_nil : Ends [] := by
  refine ⟨⟨fun c hc => ?_, fun more hmore => ?_⟩, fun more hmore => ?_⟩
  · simp at hc
  · simp at hmore
  · simp at hmore

theorem not_of_breaks {p : Char → Bool} {rest : List Char} (h : Breaks rest)
    (hp : [' ', '>', ']', ',', ';', ')', '['].all (!p ·) = true) : ∀ c ∈ rest.head?, p c = false := by
  intro c hc
  have := List.all_eq_true.1 hp c (h c hc)
  simpa using this

/-! ### The first character -/

/-- The classes of types that the first character tells apart. -/
inductive Lead where
  | keyword
  | number
  | string
  | name
  | tuple
  | object
  /-- A union or an intersection in parentheses. -/
  | group
deriving DecidableEq

/-- The class of the types whose text starts with a character. -/
def lead? (c : Char) : Option Lead :=
  if c = '"' then some .string
  else if c = '[' then some .tuple
  else if c = '{' then some .object
  else if c = '(' then some .group
  else if c = '-' ∨ c.isDigit = true then some .number
  else if c.isLower = true then some .keyword
  else if c = '_' ∨ c.isUpper = true then some .name
  else none

/-- The class of a type that is no array. -/
def lead : TypeExpr → Lead
  | literal (.number _) => .number
  | literal (.string _) => .string
  | reference _ => .name
  | nonNullable _ => .name
  | tuple _ _ => .tuple
  | object _ _ => .object
  | union _ => .group
  | intersection _ => .group
  | _ => .keyword

/-- Whether the type is an array of any length. -/
def isArray : TypeExpr → Bool
  | array _ => true
  | _ => false

/-- The text of a type as the element of an array. -/
def elementChars (type : TypeExpr) : List Char :=
  match type with
  | union _ => parenthesized type.toChars
  | intersection _ => parenthesized type.toChars
  | _ => type.toChars

/-- An array is written as its element and a pair of brackets. -/
theorem arrayOf_eq (type : TypeExpr) : arrayOf type type.toChars = type.elementChars ++ ['[', ']'] := by
  cases type <;> rfl

theorem lead?_number {c : Char} (h : c = '-' ∨ c.isDigit = true) : lead? c = some .number := by
  have hne {d : Char} (hd : d.isDigit = false) (hminus : d ≠ '-') : c ≠ d := by
    rintro rfl
    rcases h with h | h
    · exact hminus h
    · rw [hd] at h
      exact Bool.noConfusion h
  unfold lead?
  rw [if_neg (hne rfl (by decide)), if_neg (hne rfl (by decide)), if_neg (hne rfl (by decide)),
    if_neg (hne rfl (by decide)), if_pos h]

theorem lead?_name {c : Char} (h : c = '_' ∨ c.isUpper = true) : lead? c = some .name := by
  rcases h with rfl | h
  · rfl
  · rw [Naming.isUpper_iff] at h
    have hne {d : Char} (hd : d.toNat < 65 ∨ 90 < d.toNat) : c ≠ d := by
      rintro rfl
      omega
    have hnumber : ¬ (c = '-' ∨ c.isDigit = true) := by
      rintro (rfl | hdigit)
      · exact absurd h (by decide)
      · rw [← Naming.isDigit_eq_isDigit, Naming.isDigit_iff] at hdigit
        omega
    have hlower : ¬ c.isLower = true := by
      rw [Naming.isLower_iff]
      omega
    unfold lead?
    rw [if_neg (hne (by decide)), if_neg (hne (by decide)), if_neg (hne (by decide)),
      if_neg (hne (by decide)), if_neg hnumber, if_neg hlower,
      if_pos (.inr (Naming.isUpper_iff.2 h))]

theorem exists_reference_eq {path : List String} (h : WellNamed path) :
    ∃ c rest, (reference path).toChars = c :: rest ∧ (c = '_' ∨ c.isUpper = true) := by
  obtain ⟨hne, hnames⟩ := h
  cases path with
  | nil => exact absurd rfl hne
  | cons segment path =>
    obtain ⟨text, rfl⟩ := hnames segment List.mem_cons_self
    obtain ⟨c, rest, heq, hc, -⟩ := Naming.exists_identifier_eq text
    rw [toChars_reference, List.map_cons, Text.intercalate_cons_eq, heq]
    exact ⟨c, _, rfl, hc⟩

/-- The first character tells the class of a type. -/
theorem exists_lead {type : TypeExpr} (h : type.WellFormed) (harray : type.isArray = false) :
    ∃ c rest, type.elementChars = c :: rest ∧ lead? c = some type.lead := by
  cases type with
  | literal value =>
    cases value with
    | boolean b => cases b <;> exact ⟨_, _, rfl, rfl⟩
    | number n =>
      obtain ⟨c, rest, hn, hc⟩ := Number.exists_toChars_eq_cons n
      exact ⟨c, rest, hn, lead?_number hc⟩
    | string s => exact ⟨'"', _, rfl, rfl⟩
  | reference path =>
    obtain ⟨c, rest, heq, hc⟩ := exists_reference_eq h
    exact ⟨c, rest, heq, lead?_name hc⟩
  | array element => simp [isArray] at harray
  | object properties index =>
    have hbraced (members : List (List Char)) : ∃ rest, braced members = '{' :: rest := by
      cases members <;> exact ⟨_, rfl⟩
    obtain ⟨rest, heq⟩ := hbraced (propertyChars properties ++ indexChars index)
    exact ⟨'{', rest, heq, rfl⟩
  | _ => exact ⟨_, _, rfl, rfl⟩

/-- Two types written alike begin with the same kind of word. -/
theorem lead_eq_of_append_eq {type other : TypeExpr} {rest rest' : List Char} (h : type.WellFormed)
    (h' : other.WellFormed) (harray : type.isArray = false) (harray' : other.isArray = false)
    (heq : type.elementChars ++ rest = other.elementChars ++ rest') : type.lead = other.lead := by
  obtain ⟨c, cs, hc, hlead⟩ := exists_lead h harray
  obtain ⟨d, ds, hd, hlead'⟩ := exists_lead h' harray'
  rw [hc, hd, List.cons_append, List.cons_append, List.cons.injEq] at heq
  rw [heq.1, hlead', Option.some.injEq] at hlead
  exact hlead.symm

/-! ### Words -/

/-- The types that a keyword stands for. -/
def keywords : List TypeExpr :=
  [unknown, never, null, boolean, number, string, literal (.boolean true), literal (.boolean false)]

/-- A type that is led by a keyword is written by a keyword alone. -/
theorem mem_keywords {type : TypeExpr} (h : type.lead = .keyword) (harray : type.isArray = false) :
    type ∈ keywords := by
  cases type with
  | literal value =>
    cases value with
    | boolean b => cases b <;> simp [keywords]
    | _ => simp [lead] at h
  | array element => simp [isArray] at harray
  | unknown | never | null | boolean | number | string => simp [keywords]
  | _ => simp [lead] at h

/-- A keyword is written in small letters, and stands for one type. -/
theorem keyword_spec : ∀ type ∈ keywords, (∀ c ∈ type.elementChars, c.isLower = true) ∧
    keywords.find? (·.elementChars == type.elementChars) = some type := by
  have hspec (type : TypeExpr) (hlower : type.elementChars.all Char.isLower = true)
      (hfind : keywords.find? (·.elementChars == type.elementChars) = some type) :
      (∀ c ∈ type.elementChars, c.isLower = true) ∧
        keywords.find? (·.elementChars == type.elementChars) = some type :=
    ⟨List.all_eq_true.1 hlower, hfind⟩
  intro type htype
  simp only [keywords, List.mem_cons, List.not_mem_nil, or_false] at htype
  rcases htype with rfl | rfl | rfl | rfl | rfl | rfl | rfl | rfl <;> exact hspec _ rfl rfl

/-- No keyword is the beginning of another, up to where the word breaks off. -/
theorem keyword_append_injective {type other : TypeExpr} {rest rest' : List Char}
    (h : type ∈ keywords) (h' : other ∈ keywords) (hrest : Breaks rest) (hrest' : Breaks rest')
    (heq : type.elementChars ++ rest = other.elementChars ++ rest') : type = other ∧ rest = rest' := by
  obtain ⟨hlower, hfind⟩ := keyword_spec type h
  obtain ⟨hlower', hfind'⟩ := keyword_spec other h'
  obtain ⟨hchars, hrests⟩ := Text.word_append_injective hlower hlower' (not_of_breaks hrest (by decide))
    (not_of_breaks hrest' (by decide)) heq
  rw [hchars, hfind'] at hfind
  exact ⟨(Option.some.inj hfind).symm, hrests⟩

/-- The text of no keyword starts like this one. -/
theorem keyword_ne_undefined {type : TypeExpr} (h : type ∈ keywords) {rest rest' : List Char}
    (hrest : Breaks rest) (hrest' : Breaks rest') :
    type.elementChars ++ rest ≠ "undefined".toList ++ rest' := by
  intro heq
  obtain ⟨hlower, hfind⟩ := keyword_spec type h
  obtain ⟨hchars, -⟩ := Text.word_append_injective hlower (List.all_eq_true.1 (by decide))
    (not_of_breaks hrest (by decide)) (not_of_breaks hrest' (by decide)) heq
  have hnone : keywords.find? (·.elementChars == "undefined".toList) = none := rfl
  rw [hchars, hnone] at hfind
  exact absurd hfind.symm (Option.some_ne_none type)

/-- The characters of a path. -/
def isPathChar (c : Char) : Bool :=
  Naming.isLetter c || Naming.isDigit c || c == '_' || c == '.'

/-- The segments of a path hold letters, digits and underscores, so no point. -/
theorem identifier_chars {segment : String} (h : ∃ text, Naming.identifier text = segment) :
    ∀ c ∈ segment.toList, Naming.isLetter c = true ∨ Naming.isDigit c = true ∨ c = '_' := by
  obtain ⟨text, rfl⟩ := h
  obtain ⟨c, rest, heq, hc, hrest⟩ := Naming.exists_identifier_eq text
  intro d hd
  rw [heq] at hd
  rcases List.mem_cons.1 hd with rfl | hd
  · rcases hc with rfl | hc
    · exact .inr (.inr rfl)
    · rw [Naming.isUpper_iff] at hc
      exact .inl (Naming.isLetter_iff.2 (.inl hc))
  · exact (hrest d hd).imp_right .inl

theorem isPathChar_of_mem {path : List String} (h : WellNamed path) {c : Char}
    (hc : c ∈ (reference path).toChars) : isPathChar c = true := by
  obtain ⟨-, hnames⟩ := h
  have hdot : isPathChar '.' = true := by decide
  rw [toChars_reference] at hc
  induction path with
  | nil => simp at hc
  | cons segment path ih =>
    rw [List.map_cons, Text.intercalate_cons_eq, List.mem_append] at hc
    -- The character stands in the first segment, is a point, or stands in a later segment.
    rcases hc with hc | hc
    · rcases identifier_chars (hnames segment List.mem_cons_self) c hc with hc | hc | rfl
      · simp [isPathChar, hc]
      · simp [isPathChar, hc]
      · decide
    · cases path with
      | nil => simp [Text.tailChars] at hc
      | cons next path =>
        rw [List.map_cons, Text.tailChars, List.mem_append, List.mem_singleton] at hc
        · rcases hc with rfl | hc
          · exact hdot
          · exact ih hc fun segment hsegment => hnames segment (List.mem_cons_of_mem _ hsegment)
        · simp

/-- A path is cut at its points. -/
theorem path_injective {path path' : List String} (h : WellNamed path) (h' : WellNamed path')
    (heq : (reference path).toChars = (reference path').toChars) : path = path' := by
  have hpoint {segment : String} (hsegment : ∃ text, Naming.identifier text = segment) :
      ∀ c ∈ segment.toList, (c != '.') = true := by
    intro c hc
    rw [bne_iff_ne]
    rintro rfl
    exact absurd (identifier_chars hsegment '.' hc) (by decide)
  rw [toChars_reference, toChars_reference, ← List.append_nil (List.intercalate _ (path.map _)),
    ← List.append_nil (List.intercalate _ (path'.map _))] at heq
  have hmap := (Text.joined_append_injective String.toList id
    (fun rest => ∀ c ∈ rest.head?, (c != '.') = false) (· = [])
    (fun rest c hc => by rw [← Option.some.inj hc]; rfl) (by rintro _ rfl c hc; simp at hc)
    (by rintro _ rest' rfl heq; simp at heq) (fun segment hsegment segment' hsegment' rest rest'
      hrest hrest' heq => ?_) h.1 h'.1 rfl rfl heq).1
  · simpa using hmap
  · obtain ⟨hchars, hrests⟩ := Text.word_append_injective (hpoint (h.2 segment hsegment))
      (hpoint (h'.2 segment' hsegment')) hrest hrest' heq
    exact ⟨String.toList_inj.1 hchars, hrests⟩

end TypeExpr
end Typewright
