import Mathlib.Logic.Function.Iterate
import Typewright.Proofs.TypeExpr.Unambiguous.Parts

/-!
# Types are told apart by their text

The text of a well-formed type gives the type away, but for the marks that it does not show
(`text_eq_text_iff`).  The argument follows the levels of the text: a union is joined from terms, a
term from factors, and a factor is a word, a string, a tuple, an object or a group in parentheses, with
brackets after it.  At each level a text that goes on beyond the type can be cut off in one way only
(`told`).
-/

namespace Typewright.TypeExpr

/-! ### Factors -/

/-- All smaller well-formed types can be told from their text. -/
def Below (type : TypeExpr) : Prop :=
  ∀ inner : TypeExpr, sizeOf inner < sizeOf type → inner.WellFormed → inner.Told

theorem Below.of_le {type other : TypeExpr} (h : type.Below) (hle : sizeOf other ≤ sizeOf type) :
    other.Below :=
  fun inner hlt => h inner (Nat.lt_of_lt_of_le hlt hle)

theorem path_append_injective {path path' : List String} (h : WellNamed path) (h' : WellNamed path')
    {rest rest' : List Char} (hrest : Breaks rest) (hrest' : Breaks rest')
    (heq : (reference path).toChars ++ rest = (reference path').toChars ++ rest') :
    path = path' ∧ rest = rest' := by
  obtain ⟨hchars, hrests⟩ := Text.word_append_injective (fun _ => isPathChar_of_mem h)
    (fun _ => isPathChar_of_mem h') (not_of_breaks hrest (by decide))
    (not_of_breaks hrest' (by decide)) heq
  exact ⟨path_injective h h' hchars, hrests⟩

/-- A path is no type without null: what follows the word is no angle bracket. -/
theorem path_ne_nonNullable {path : List String} (h : WellNamed path) (type : TypeExpr)
    {rest rest' : List Char} (hrest : Breaks rest) :
    (reference path).toChars ++ rest ≠ (nonNullable type).toChars ++ rest' := by
  have hword : (nonNullable type).toChars ++ rest' =
      "NonNullable".toList ++ '<' :: (type.toChars ++ '>' :: rest') := by
    rw [toChars_nonNullable]
    simp
  rw [hword]
  intro heq
  obtain ⟨-, hrests⟩ := Text.word_append_injective (p := isPathChar) (fun _ => isPathChar_of_mem h)
    (List.all_eq_true.1 (by decide)) (not_of_breaks hrest (by decide))
    (fun c hc => by rw [← Option.some.inj hc]; decide) heq
  rw [hrests] at hrest
  exact absurd (hrest '<' rfl) (by decide)

/-- The types of a class. -/
def OfLead (type : TypeExpr) : Lead → Prop
  | .number => ∃ n, type = literal (.number n)
  | .string => ∃ s, type = literal (.string s)
  | .name => (∃ path, type = reference path) ∨ ∃ inner, type = nonNullable inner
  | .tuple => ∃ elements rest, type = tuple elements rest
  | .object => ∃ properties index, type = object properties index
  | _ => True

theorem ofLead_lead (type : TypeExpr) : type.OfLead type.lead := by
  cases type with
  | literal value =>
    cases value with
    | boolean b => trivial
    | number n => exact ⟨n, rfl⟩
    | string s => exact ⟨s, rfl⟩
  | reference path => exact .inl ⟨path, rfl⟩
  | nonNullable inner => exact .inr ⟨inner, rfl⟩
  | tuple elements rest => exact ⟨elements, rest, rfl⟩
  | object properties index => exact ⟨properties, index, rfl⟩
  | _ => trivial

theorem nonNullable_append (type : TypeExpr) (rest : List Char) :
    (nonNullable type).toChars ++ rest = "NonNullable<".toList ++ (type.toChars ++ '>' :: rest) := by
  rw [toChars_nonNullable]
  simp

/-- The type of a member is well-formed and smaller than the object type. -/
theorem member_spec {properties : List (Property TypeExpr)} {index : Option (IndexSignature TypeExpr)}
    (h : (object properties index).WellFormed) {member : Member}
    (hmember : member ∈ labelled properties index) :
    member.type.WellFormed ∧ sizeOf member.type < sizeOf (object properties index) := by
  rw [object.sizeOf_spec]
  rcases List.mem_append.1 hmember with hmember | hmember
  · obtain ⟨property, hproperty, rfl⟩ := List.mem_map.1 hmember
    refine ⟨propertiesWellFormed_iff.1 h.1 property hproperty, ?_⟩
    have hsize := List.sizeOf_lt_of_mem hproperty
    obtain ⟨name, type, optional, readonly⟩ := property
    rw [Property.mk.sizeOf_spec] at hsize
    simp only [Member.type]
    omega
  · obtain ⟨signature, hsignature, rfl⟩ := List.mem_map.1 hmember
    obtain rfl := Option.mem_toList.1 hsignature
    obtain ⟨type, optional, readonly⟩ := signature
    refine ⟨h.2, ?_⟩
    simp only [Member.type, Option.some.sizeOf_spec, IndexSignature.mk.sizeOf_spec]
    omega

/-- The type of an entry is well-formed and smaller than the tuple type. -/
theorem entry_spec {elements : List TypeExpr} {last : Option TypeExpr}
    (h : (tuple elements last).WellFormed) {entry : Entry} (hentry : entry ∈ labelled elements last) :
    entry.type.WellFormed ∧ sizeOf entry.type < sizeOf (tuple elements last) := by
  rw [tuple.sizeOf_spec]
  rcases List.mem_append.1 hentry with hentry | hentry
  · obtain ⟨element, helement, rfl⟩ := List.mem_map.1 hentry
    refine ⟨allWellFormed_iff.1 h.1 element helement, ?_⟩
    have hsize := List.sizeOf_lt_of_mem helement
    simp only [Entry.type]
    omega
  · obtain ⟨rest, hrest, rfl⟩ := List.mem_map.1 hentry
    obtain rfl := Option.mem_toList.1 hrest
    refine ⟨h.2, ?_⟩
    have hsize : 0 < sizeOf elements := by cases elements <;> simp
    simp only [Entry.type, Option.some.sizeOf_spec, array.sizeOf_spec]
    omega

/-- What is written before the brackets of arrays is told from the beginning of a text. -/
theorem core_append_injective {type other : TypeExpr} (hbelow : type.Below)
    (hself : type.lead = .group → type.Told) (h : type.WellFormed) (hother : other.WellFormed)
    (harray : type.isArray = false) (harray' : other.isArray = false) {rest rest' : List Char}
    (hrest : Breaks rest) (hrest' : Breaks rest')
    (heq : type.elementChars ++ rest = other.elementChars ++ rest') :
    type.shown = other.shown ∧ rest = rest' := by
  -- The first characters give the class away, so both types are of one class.
  have hlead := lead_eq_of_append_eq h hother harray harray' heq
  have hkeyword (hk : type.lead = .keyword) : type.shown = other.shown ∧ rest = rest' := by
    obtain ⟨rfl, hrests⟩ := keyword_append_injective (mem_keywords hk harray)
      (mem_keywords (hlead ▸ hk) harray') hrest hrest' heq
    exact ⟨rfl, hrests⟩
  have hgroup (hg : type.lead = .group) : type.shown = other.shown ∧ rest = rest' := by
    have hparenthesized {type : TypeExpr} (hg : type.lead = .group) (rest : List Char) :
        type.elementChars ++ rest = '(' :: (type.toChars ++ ')' :: rest) := by
      have hchars : type.elementChars = parenthesized type.toChars := by
        cases type with
        | union members => rfl
        | intersection members => rfl
        | literal value => cases value <;> exact Lead.noConfusion hg
        | _ => exact Lead.noConfusion hg
      rw [hchars, parenthesized]
      simp
    rw [hparenthesized hg, hparenthesized (hlead ▸ hg)] at heq
    obtain ⟨hshown, hrests⟩ := (hself hg).append_injective hother (ends_cons (by decide))
      (ends_cons (by decide)) (List.cons.inj heq).2
    exact ⟨hshown, (List.cons.inj hrests).2⟩
  have hlike := ofLead_lead other
  rw [← hlead] at hlike
  cases type with
  | literal value =>
    cases value with
    | boolean b => exact hkeyword rfl
    | number n =>
      obtain ⟨m, rfl⟩ := hlike
      obtain ⟨hchars, hrests⟩ := Text.word_append_injective
        (fun _ => Number.isNumberChar_of_mem_toChars) (fun _ => Number.isNumberChar_of_mem_toChars)
        (not_of_breaks hrest (by decide)) (not_of_breaks hrest' (by decide)) heq
      exact ⟨by rw [Number.toChars_injective hchars], hrests⟩
    | string s =>
      obtain ⟨t, rfl⟩ := hlike
      obtain ⟨hchars, hrests⟩ := Text.quoteChars_append_injective heq
      exact ⟨by rw [String.toList_inj.1 hchars], hrests⟩
  | reference path =>
    obtain ⟨path', rfl⟩ | ⟨inner, rfl⟩ := hlike
    · obtain ⟨rfl, hrests⟩ := path_append_injective h hother hrest hrest' heq
      exact ⟨rfl, hrests⟩
    · exact absurd heq (path_ne_nonNullable h inner hrest)
  | nonNullable inner =>
    obtain ⟨path, rfl⟩ | ⟨inner', rfl⟩ := hlike
    · exact absurd heq.symm (path_ne_nonNullable hother inner hrest')
    · have hinner := hbelow inner (by rw [nonNullable.sizeOf_spec]; omega) h
      have hangle := (nonNullable_append inner rest).symm.trans
        (heq.trans (nonNullable_append inner' rest'))
      have hinner' : inner'.WellFormed := hother
      obtain ⟨hshown, hrests⟩ := hinner.append_injective hinner' (ends_cons (by decide))
        (ends_cons (by decide)) (List.append_cancel_left hangle)
      exact ⟨by rw [shown, shown, hshown], (List.cons.inj hrests).2⟩
  | tuple elements last =>
    obtain ⟨elements', last', rfl⟩ := hlike
    refine tuple_append_injective (fun entry hentry => ?_) (fun _ hentry => (entry_spec hother hentry).1)
      heq
    obtain ⟨hwell, hsize⟩ := entry_spec h hentry
    exact ⟨hbelow _ hsize hwell, hwell⟩
  | object properties index =>
    obtain ⟨properties', index', rfl⟩ := hlike
    refine object_append_injective (fun member hmember => ?_)
      (fun _ hmember => (member_spec hother hmember).1) heq
    obtain ⟨hwell, hsize⟩ := member_spec h hmember
    exact hbelow _ hsize hwell
  | array element => exact Bool.noConfusion harray
  | union members => exact hgroup rfl
  | intersection members => exact hgroup rfl
  | _ => exact hkeyword rfl

/-- The brackets of so many arrays. -/
def brackets (depth : Nat) : List Char :=
  (List.replicate depth ['[', ']']).flatten

theorem brackets_succ (depth : Nat) : brackets (depth + 1) = '[' :: ']' :: brackets depth := rfl

theorem breaks_brackets {rest : List Char} (h : EndsFactor rest) (depth : Nat) :
    Breaks (brackets depth ++ rest) := by
  cases depth with
  | zero => exact h.breaks
  | succ depth =>
    intro c hc
    rw [← Option.some.inj hc]
    decide

theorem brackets_append_injective {depth depth' : Nat} {rest rest' : List Char} (hrest : EndsFactor rest)
    (hrest' : EndsFactor rest') (h : brackets depth ++ rest = brackets depth' ++ rest') :
    depth = depth' ∧ rest = rest' := by
  have hnone {rest more : List Char} (hrest : EndsFactor rest) : rest ≠ '[' :: more := by
    rintro rfl
    exact absurd (hrest '[' rfl) (by decide)
  induction depth generalizing depth' with
  | zero =>
    cases depth' with
    | zero => exact ⟨rfl, h⟩
    | succ depth' => exact absurd h (hnone hrest)
  | succ depth ih =>
    cases depth' with
    | zero => exact absurd h.symm (hnone hrest')
    | succ depth' =>
      rw [brackets_succ, brackets_succ] at h
      obtain ⟨rfl, hrests⟩ := ih (List.cons.inj (List.cons.inj h).2).2
      exact ⟨rfl, hrests⟩

theorem shown_iterate_array (depth : Nat) (type : TypeExpr) :
    (array^[depth] type).shown = array^[depth] type.shown := by
  induction depth generalizing type with
  | zero => rfl
  | succ depth ih => rw [Function.iterate_succ_apply, Function.iterate_succ_apply, ih, shown]

theorem elementChars_array (element : TypeExpr) (depth : Nat) :
    (array element).elementChars ++ brackets depth = element.elementChars ++ brackets (depth + 1) := by
  change arrayOf element element.toChars ++ _ = _
  rw [arrayOf_eq, List.append_assoc]
  rfl

/-- An element is told from the beginning of a text together with the brackets after it: those that
    belong to it and those that do not are counted together. -/
theorem element_append_injective (type other : TypeExpr) (depth depth' : Nat) (hbelow : type.Below)
    (hself : type.lead = .group → type.Told) (h : type.WellFormed) (hother : other.WellFormed)
    {rest rest' : List Char} (hrest : EndsFactor rest) (hrest' : EndsFactor rest')
    (heq : type.elementChars ++ (brackets depth ++ rest) =
      other.elementChars ++ (brackets depth' ++ rest')) :
    (array^[depth] type).shown = (array^[depth'] other).shown ∧ rest = rest' := by
  by_cases harray : type.isArray = true
  · cases type with
    | array element =>
      have hsize : sizeOf element < sizeOf (array element) := by
        rw [array.sizeOf_spec]
        omega
      -- The bracket of the array joins those after it, and the element is what is left to tell.
      rw [← List.append_assoc, elementChars_array, List.append_assoc] at heq
      exact element_append_injective element other (depth + 1) depth' (hbelow.of_le (Nat.le_of_lt hsize))
        (fun _ => hbelow element hsize h) h hother hrest hrest' heq
    | _ => exact Bool.noConfusion harray
  · by_cases harray' : other.isArray = true
    · cases other with
      | array element =>
        rw [← List.append_assoc (elementChars _) (brackets depth'), elementChars_array,
          List.append_assoc] at heq
        exact element_append_injective type element depth (depth' + 1) hbelow hself h hother hrest
          hrest' heq
      | _ => exact Bool.noConfusion harray'
    · rw [Bool.not_eq_true] at harray harray'
      obtain ⟨hshown, hbrackets⟩ := core_append_injective hbelow hself h hother harray harray'
        (breaks_brackets hrest depth) (breaks_brackets hrest' depth') heq
      obtain ⟨rfl, hrests⟩ := brackets_append_injective hrest hrest' hbrackets
      exact ⟨by rw [shown_iterate_array, shown_iterate_array, hshown], hrests⟩
termination_by sizeOf type + sizeOf other

/-! ### Terms and types -/

/-- A single member stands for itself, and several make a whole. -/
def assemble (whole : List TypeExpr → TypeExpr) : List TypeExpr → TypeExpr
  | [member] => member
  | members => whole members

theorem assemble_eq {whole : List TypeExpr → TypeExpr} {members : List TypeExpr}
    (h : 2 ≤ members.length) : assemble whole members = whole members := by
  match members, h with
  | _ :: _ :: _, _ => rfl

theorem shown_eq_factors {type : TypeExpr} (h : type.WellFormed) :
    type.shown = assemble intersection (type.intersectionMembers.map shown) := by
  cases type with
  | intersection members =>
    rw [shown, allShown_eq_map, intersectionMembers, assemble_eq]
    rw [List.length_map]
    exact h.1
  | _ => rfl

theorem shown_eq_terms {type : TypeExpr} (h : type.WellFormed) :
    type.shown = assemble union (type.unionMembers.map shown) := by
  cases type with
  | union members =>
    rw [shown, allShown_eq_map, unionMembers, assemble_eq]
    rw [List.length_map]
    exact h.1
  | _ => rfl

/-- A term is told from the beginning of a text. -/
theorem term_append_injective {type other : TypeExpr} (hbelow : type.Below) (h : type.WellFormed)
    (hother : other.WellFormed) (hunion : type.isUnion = false) (hunion' : other.isUnion = false)
    {rest rest' : List Char} (hrest : EndsTerm rest) (hrest' : EndsTerm rest')
    (heq : type.toChars ++ rest = other.toChars ++ rest') :
    type.shown = other.shown ∧ rest = rest' := by
  -- Factors are smaller than the term, or are its own unions in parentheses.
  have hfactor : ∀ factor ∈ type.intersectionMembers, ∀ factor' ∈ other.intersectionMembers,
      ∀ rest rest', EndsFactor rest → EndsFactor rest' →
        factor.elementChars ++ rest = factor'.elementChars ++ rest' →
          factor.shown = factor'.shown ∧ rest = rest' := by
    intro factor hfactor factor' hfactor' rest rest' hrest hrest' heq
    obtain ⟨hwell, hsize, hgroup⟩ := factor_spec h hunion hfactor
    obtain ⟨hwell', -, -⟩ := factor_spec hother hunion' hfactor'
    exact element_append_injective factor factor' 0 0 (hbelow.of_le hsize)
      (fun hlead => hbelow factor (hgroup hlead) hwell) hwell hwell' hrest hrest' heq
  have hspace (rest : List Char) : EndsFactor ([' ', '&', ' '] ++ rest) := fun c hc => by
    rw [← Option.some.inj hc]
    decide
  rw [toChars_eq_factors h hunion, toChars_eq_factors hother hunion'] at heq
  obtain ⟨hfactors, hrests⟩ := Text.joined_append_injective elementChars shown EndsFactor EndsTerm
    hspace (fun _ hrest => hrest.1) (fun _ more hrest => hrest.2 more) hfactor
    (intersectionMembers_ne_nil h) (intersectionMembers_ne_nil hother) hrest hrest' heq
  exact ⟨by rw [shown_eq_factors h, hfactors, ← shown_eq_factors hother], hrests⟩

/-- A term of a union, or the mark after the last one. -/
abbrev Term : Type :=
  TypeExpr ⊕ Unit

namespace Term

/-- The text of a term. -/
def chars : Term → List Char
  | .inl type => type.toChars
  | .inr _ => "undefined".toList

/-- A term without the marks that are not shown. -/
def shown : Term → Term :=
  Sum.map TypeExpr.shown id

/-- The mark of an index signature as a term. -/
def mark? (marked : Bool) : Option Unit :=
  if marked then some () else none

theorem mark?_injective {marked marked' : Bool} (h : mark? marked = mark? marked') :
    marked = marked' := by
  cases marked <;> cases marked' <;> first | rfl | exact absurd h (by decide)

/-- A term is told from the beginning of a text, if it is smaller than a type inside which all types
    are. -/
theorem chars_append_injective {term term' : Term}
    (h : ∀ type, term = .inl type → type.Below ∧ type.WellFormed ∧ type.isUnion = false)
    (h' : ∀ type, term' = .inl type → type.WellFormed ∧ type.isUnion = false)
    {rest rest' : List Char} (hrest : EndsTerm rest) (hrest' : EndsTerm rest')
    (heq : term.chars ++ rest = term'.chars ++ rest') : term.shown = term'.shown ∧ rest = rest' := by
  -- A term is a type or the word for a missing value, which no type begins with.
  cases term with
  | inl type =>
    obtain ⟨hbelow, hwell, hunion⟩ := h type rfl
    cases term' with
    | inl other =>
      obtain ⟨hwell', hunion'⟩ := h' other rfl
      obtain ⟨hshown, hrests⟩ :=
        term_append_injective hbelow hwell hwell' hunion hunion' hrest hrest' heq
      exact ⟨congrArg Sum.inl hshown, hrests⟩
    | inr _ => exact absurd heq (toChars_ne_undefined hwell hrest.1.breaks hrest'.1.breaks)
  | inr _ =>
    cases term' with
    | inl other =>
      exact absurd heq.symm (toChars_ne_undefined (h' other rfl).1 hrest'.1.breaks hrest.1.breaks)
    | inr _ => exact ⟨rfl, List.append_cancel_left heq⟩

end Term

theorem toChars_append_mark {type : TypeExpr} (h : type.WellFormed) (marked : Bool) :
    type.toChars ++ markChars marked =
      [' ', '|', ' '].intercalate ((labelled type.unionMembers (Term.mark? marked)).map Term.chars) := by
  have hterms : (type.unionMembers.map Sum.inl).map Term.chars = type.unionMembers.map toChars := by
    rw [List.map_map]
    rfl
  rw [labelled, List.map_append, hterms, toChars_eq_terms]
  cases marked with
  | false => simp [markChars, Term.mark?]
  | true =>
    have hne : type.unionMembers.map toChars ≠ [] := by
      simpa using unionMembers_ne_nil h
    have hmark : ((Term.mark? true).toList.map Sum.inr).map Term.chars = ["undefined".toList] := rfl
    rw [hmark, Text.intercalate_concat hne]
    rfl

/-- Every well-formed type can be told from its text. -/
theorem told (type : TypeExpr) (h : type.WellFormed) : type.Told := by
  have hbelow : type.Below := fun inner _ hinner => told inner hinner
  intro other marked marked' rest rest' hother hrest hrest' heq
  -- The mark after a type reads like one more term, so both texts are cut at the same bars.
  rw [← List.append_assoc, ← List.append_assoc, toChars_append_mark h, toChars_append_mark hother] at heq
  have hspace (rest : List Char) : EndsTerm ([' ', '|', ' '] ++ rest) := by
    refine ⟨fun c hc => ?_, fun more hmore => ?_⟩
    · rw [← Option.some.inj hc]
      decide
    · simp at hmore
  have hmember {type : TypeExpr} {marked : Bool} {term : TypeExpr}
      (hterm : Sum.inl term ∈ labelled type.unionMembers (Term.mark? marked)) :
      term ∈ type.unionMembers := by
    simpa [labelled] using hterm
  have hne {type : TypeExpr} (h : type.WellFormed) (marked : Bool) :
      labelled type.unionMembers (Term.mark? marked) ≠ [] := by
    simp [labelled, unionMembers_ne_nil h]
  obtain ⟨hterms, hrests⟩ := Text.joined_append_injective Term.chars Term.shown EndsTerm Ends hspace
    (fun _ hrest => hrest.1) (fun _ more hrest => hrest.2 more)
    (fun term hterm term' hterm' _ _ hrest hrest' heq => Term.chars_append_injective
      (fun _ hinl => by
        obtain ⟨hwell, hunion, hsize⟩ := term_spec h (hmember (hinl ▸ hterm))
        exact ⟨hbelow.of_le hsize, hwell, hunion⟩)
      (fun _ hinl => by
        obtain ⟨hwell, hunion, -⟩ := term_spec hother (hmember (hinl ▸ hterm'))
        exact ⟨hwell, hunion⟩) hrest hrest' heq)
    (hne h marked) (hne hother marked') hrest hrest' heq
  rw [Term.shown, map_labelled, map_labelled, Option.map_id, id, id] at hterms
  obtain ⟨hmembers, hmarks⟩ := labelled_injective hterms
  refine ⟨?_, Term.mark?_injective hmarks, hrests⟩
  rw [shown_eq_terms h, hmembers, ← shown_eq_terms hother]
termination_by sizeOf type

/-- Well-formed types have one text exactly when they are equal, up to whether the members of an index
    signature of type `unknown` may be missing. -/
theorem text_eq_text_iff {type other : TypeExpr} (h : type.WellFormed) (hother : other.WellFormed) :
    type.text = other.text ↔ type.shown = other.shown := by
  constructor
  · intro heq
    have hchars : type.toChars ++ [] = other.toChars ++ [] := by
      rw [List.append_nil, List.append_nil]
      exact String.ofList_inj.1 heq
    exact ((told type h).append_injective hother ends_nil ends_nil hchars).1
  · intro heq
    rw [text, text, ← toChars_shown, heq, toChars_shown]

/-- Parentheses tell a list of names or nulls from a name or a list of nulls. -/
theorem text_ne_text_array_union :
    (array (union [reference ["Pet"], null])).text ≠ (union [reference ["Pet"], array null]).text := by
  have hnamed : WellNamed ["Pet"] := by
    refine ⟨List.cons_ne_nil _ _, fun segment hsegment => ⟨"pet", ?_⟩⟩
    rw [List.mem_singleton.1 hsegment]
    rfl
  have harray : (array (union [reference ["Pet"], null])).WellFormed :=
    ⟨Nat.le_refl 2, by simp [isUnion], hnamed, trivial, trivial⟩
  have hunion : (union [reference ["Pet"], array null]).WellFormed :=
    ⟨Nat.le_refl 2, by simp [isUnion], hnamed, trivial, trivial⟩
  intro htext
  exact TypeExpr.noConfusion ((text_eq_text_iff harray hunion).1 htext)

end Typewright.TypeExpr
