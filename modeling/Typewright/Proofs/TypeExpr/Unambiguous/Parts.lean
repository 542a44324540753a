import Typewright.Proofs.TypeExpr.Unambiguous.Words

/-!
# Object and tuple types are told by their parts

The members of an object type and the entries of a tuple type are joined by separators.  If the types
inside can be told from their texts (`Told`), then so can the whole (`object_append_injective`,
`tuple_append_injective`).
-/

namespace Typewright.TypeExpr

/-! ### Types inside -/

/-- What a marked index signature puts after its type. -/
def markChars (marked : Bool) : List Char :=
  if marked then " | undefined".toList else []

/-- The type can be told from a text that starts with its own, with or without a mark after it. -/
def Told (type : TypeExpr) : Prop :=
  ∀ (other : TypeExpr) marked marked' rest rest', other.WellFormed → Ends rest → Ends rest' →
    type.toChars ++ (markChars marked ++ rest) = other.toChars ++ (markChars marked' ++ rest') →
      type.shown = other.shown ∧ marked = marked' ∧ rest = rest'

theorem Told.append_injective {type other : TypeExpr} {rest rest' : List Char} (h : type.Told)
    (hother : other.WellFormed) (hrest : Ends rest) (hrest' : Ends rest')
    (heq : type.toChars ++ rest = other.toChars ++ rest') :
    type.shown = other.shown ∧ rest = rest' := by
  obtain ⟨hshown, -, hrests⟩ := h other false false rest rest' hother hrest hrest' heq
  exact ⟨hshown, hrests⟩

/-! ### Lists with a last entry of another kind -/

section Labelled

variable {α β : Type}

/-- The entries of a list and, after them, one of another kind if there is one. -/
def labelled (entries : List α) (last : Option β) : List (α ⊕ β) :=
  entries.map .inl ++ last.toList.map .inr

theorem labelled_injective {entries entries' : List α} {last last' : Option β}
    (h : labelled entries last = labelled entries' last') : entries = entries' ∧ last = last' := by
  have hleft (entries : List α) (last : Option β) :
      (labelled entries last).filterMap Sum.getLeft? = entries := by
    simp [labelled, List.filterMap_map, Function.comp_def]
  have hright (entries : List α) (last : Option β) :
      (labelled entries last).filterMap Sum.getRight? = last.toList := by
    simp [labelled, List.filterMap_map, Function.comp_def]
  constructor
  · rw [← hleft entries last, h, hleft]
  · have hlast : last.toList = last'.toList := by rw [← hright entries last, h, hright]
    cases last <;> cases last' <;> simp_all

theorem map_labelled {γ δ : Type} (f : α → γ) (g : β → δ) (entries : List α) (last : Option β) :
    (labelled entries last).map (Sum.map f g) = labelled (entries.map f) (last.map g) := by
  cases last <;> simp [labelled]

end Labelled

/-! ### Property keys -/

theorem propertyKey_append_injective {name name' rest rest' : List Char}
    (hrest : ∀ c ∈ rest.head?, Naming.continuesWord c = false)
    (hrest' : ∀ c ∈ rest'.head?, Naming.continuesWord c = false)
    (h : Naming.propertyKeyChars name ++ rest = Naming.propertyKeyChars name' ++ rest') :
    name = name' ∧ rest = rest' := by
  -- A plain word does not start with a quote.
  have hmixed {word cs : List Char} (hword : Naming.isPlainWord word = true) (rest rest' : List Char) :
      word ++ rest ≠ Text.quoteChars cs ++ rest' := by
    intro h
    cases word with
    | nil => exact Bool.noConfusion hword
    | cons c word =>
      have hc : c = '"' := (List.cons.inj h).1
      rw [hc] at hword
      exact Bool.noConfusion hword
  have hplain {word : List Char} (hword : Naming.isPlainWord word = true) :
      ∀ c ∈ word, Naming.continuesWord c = true := by
    cases word with
    | nil => exact Bool.noConfusion hword
    | cons c word =>
      rw [Naming.isPlainWord, Bool.and_eq_true, List.all_eq_true] at hword
      refine List.forall_mem_cons.2 ⟨?_, hword.2⟩
      rw [Naming.continuesWord, hword.1, Bool.true_or]
  unfold Naming.propertyKeyChars at h
  split at h
  · next hname =>
    split at h
    · next hname' =>
      exact Text.word_append_injective (hplain hname) (hplain hname') hrest hrest' h
    · exact absurd h (hmixed hname _ _)
  · split at h
    · next hname' => exact absurd h.symm (hmixed hname' _ _)
    · exact Text.quoteChars_append_injective h

/-! ### Members of object types -/

/-- A property or an index signature. -/
abbrev Member : Type :=
  Property TypeExpr ⊕ IndexSignature TypeExpr

namespace Member

/-- What comes before the colon, but for the `readonly`. -/
def label : Member → List Char
  | .inl property =>
    Naming.propertyKeyChars property.name.toList ++ if property.optional then ['?'] else []
  | .inr _ => "[key: string]".toList

theorem label_inl (property : Property TypeExpr) :
    label (.inl property) =
      Naming.propertyKeyChars property.name.toList ++ if property.optional then ['?'] else [] := rfl

theorem label_inr (index : IndexSignature TypeExpr) :
    label (.inr index) = '[' :: "key: string]".toList := rfl

/-- Whether the member is marked as read-only. -/
def readonly : Member → Bool
  | .inl property => property.readonly
  | .inr index => index.readonly

/-- The type of a member. -/
def type : Member → TypeExpr
  | .inl property => property.type
  | .inr index => index.type

/-- Whether a mark comes after the type. -/
def marked : Member → Bool
  | .inl _ => false
  | .inr index => index.type.showsOptional index.optional

/-- The text of a member. -/
def chars (member : Member) : List Char :=
  afterReadonly member.readonly
    (member.label ++ [':', ' '] ++ member.type.toChars ++ markChars member.marked)

/-- A member without the marks that are not shown. -/
def shown : Member → Member :=
  Sum.map propertyShown signatureShown

/-- The name of a property and whether it may be missing. -/
def key : Member → Option (String × Bool)
  | .inl property => some (property.name, property.optional)
  | .inr _ => none

theorem shown_eq_of_parts_eq {member member' : Member} (hkey : member.key = member'.key)
    (hreadonly : member.readonly = member'.readonly)
    (htype : member.type.shown = member'.type.shown) (hmarked : member.marked = member'.marked) :
    member.shown = member'.shown := by
  obtain ⟨name, type, optional, readonly⟩ | ⟨type, optional, readonly⟩ := member <;>
    obtain ⟨name', type', optional', readonly'⟩ | ⟨type', optional', readonly'⟩ := member' <;>
      simp_all [key, Member.readonly, Member.type, Member.marked, shown, propertyShown, signatureShown]

theorem not_continuesWord_mark (optional : Bool) (rest : List Char) :
    ∀ c ∈ ((if optional then ['?'] else []) ++ ':' :: rest).head?, Naming.continuesWord c = false := by
  intro c hc
  cases optional <;> rw [← Option.some.inj hc] <;> rfl

theorem mark_injective {optional optional' : Bool} {rest rest' : List Char}
    (h : (if optional then ['?'] else []) ++ ':' :: rest =
      (if optional' then ['?'] else []) ++ ':' :: rest') : optional = optional' ∧ rest = rest' := by
  cases optional <;> cases optional' <;> simp_all

/-- The text of a property key does not start with a bracket. -/
theorem propertyKey_ne_bracket (name rest rest' : List Char) :
    Naming.propertyKeyChars name ++ rest ≠ '[' :: rest' := by
  unfold Naming.propertyKeyChars
  split
  · next hname =>
    cases name with
    | nil => exact Bool.noConfusion hname
    | cons c name =>
      intro h
      rw [(List.cons.inj h).1] at hname
      exact Bool.noConfusion hname
  · intro h
    exact absurd (List.cons.inj h).1 (by decide)

theorem label_append_injective {member member' : Member} {rest rest' : List Char}
    (h : member.label ++ ':' :: rest = member'.label ++ ':' :: rest') :
    member.key = member'.key ∧ rest = rest' := by
  cases member with
  | inl property =>
    cases member' with
    | inl property' =>
      rw [label_inl, label_inl, List.append_assoc, List.append_assoc] at h
      obtain ⟨hname, hmark⟩ := propertyKey_append_injective (not_continuesWord_mark _ _)
        (not_continuesWord_mark _ _) h
      obtain ⟨hoptional, hrest⟩ := mark_injective hmark
      exact ⟨by rw [key, key, String.toList_inj.1 hname, hoptional], hrest⟩
    | inr index =>
      rw [label_inl, label_inr, List.append_assoc] at h
      -- A property never starts with the bracket of an index signature.
      exact absurd h (propertyKey_ne_bracket _ _ _)
  | inr index =>
    cases member' with
    | inl property' =>
      rw [label_inl, label_inr, List.append_assoc] at h
      exact absurd h.symm (propertyKey_ne_bracket _ _ _)
    | inr index' =>
      have hrest := List.append_cancel_left h
      exact ⟨rfl, (List.cons.inj hrest).2⟩

/-- A property named `readonly` is told from the mark by what follows it. -/
theorem readonly_label_ne (member : Member) (rest rest' : List Char) :
    "readonly ".toList ++ rest ≠ member.label ++ ':' :: rest' := by
  intro h
  cases member with
  | inl property =>
    have hplain : "readonly ".toList ++ rest =
        Naming.propertyKeyChars "readonly".toList ++ ' ' :: rest := rfl
    rw [hplain, label_inl, List.append_assoc] at h
    have hspace : ∀ c ∈ (' ' :: rest).head?, Naming.continuesWord c = false := by
      intro c hc
      rw [← Option.some.inj hc]
      rfl
    obtain ⟨-, hrest⟩ := propertyKey_append_injective hspace (not_continuesWord_mark _ _) h
    cases hoptional : property.optional <;> rw [hoptional] at hrest <;> simp at hrest
  | inr index => exact absurd (List.cons.inj h).1 (by decide)

theorem afterReadonly_injective {b b' : Bool} {member member' : Member} {rest rest' : List Char}
    (h : afterReadonly b (member.label ++ ':' :: rest) =
      afterReadonly b' (member'.label ++ ':' :: rest')) :
    b = b' ∧ member.label ++ ':' :: rest = member'.label ++ ':' :: rest' := by
  cases b <;> cases b'
  · exact ⟨rfl, h⟩
  · exact absurd h.symm (readonly_label_ne member _ _)
  · exact absurd h (readonly_label_ne member' _ _)
  · exact ⟨rfl, List.append_cancel_left h⟩

theorem chars_append (member : Member) (rest : List Char) :
    member.chars ++ rest = afterReadonly member.readonly (member.label ++
      ':' :: ' ' :: (member.type.toChars ++ (markChars member.marked ++ rest))) := by
  have hafter (b : Bool) (cs : List Char) :
      afterReadonly b cs ++ rest = afterReadonly b (cs ++ rest) := by
    cases b
    · rfl
    · exact List.append_assoc _ _ _
  rw [chars, hafter]
  simp only [List.append_assoc, List.cons_append, List.nil_append]

/-- A member is told from the beginning of a text, if its type is. -/
theorem chars_append_injective {member member' : Member} (h : member.type.Told)
    (hmember' : member'.type.WellFormed) {rest rest' : List Char} (hrest : Ends rest)
    (hrest' : Ends rest') (heq : member.chars ++ rest = member'.chars ++ rest') :
    member.shown = member'.shown ∧ rest = rest' := by
  rw [chars_append, chars_append] at heq
  obtain ⟨hreadonly, heq⟩ := afterReadonly_injective heq
  obtain ⟨hkey, heq⟩ := label_append_injective heq
  obtain ⟨htype, hmarked, hrests⟩ := h _ _ _ _ _ hmember' hrest hrest' (List.cons.inj heq).2
  exact ⟨shown_eq_of_parts_eq hkey hreadonly htype hmarked, hrests⟩

end Member

theorem indexType_eq (index : IndexSignature TypeExpr) :
    indexType index.optional index.type index.type.toChars =
      index.type.toChars ++ markChars (index.type.showsOptional index.optional) := by
  obtain ⟨type, optional, readonly⟩ := index
  cases optional <;> cases type <;> first | rfl | exact (List.append_nil _).symm

theorem propertyChars_eq_map (properties : List (Property TypeExpr)) :
    propertyChars properties = properties.map fun property => Member.chars (.inl property) := by
  induction properties with
  | nil => rfl
  | cons property rest ih =>
    rw [propertyChars_cons, ih, List.map_cons, Member.chars]
    congr 1
    change afterReadonly _ _ = afterReadonly _ (_ ++ [])
    rw [List.append_nil]
    rfl

/-- The texts of the members of an object type, the index signature last. -/
theorem memberChars_eq (properties : List (Property TypeExpr))
    (index : Option (IndexSignature TypeExpr)) :
    propertyChars properties ++ indexChars index = (labelled properties index).map Member.chars := by
  rw [labelled, List.map_append, List.map_map, propertyChars_eq_map]
  cases index with
  | none => rfl
  | some index =>
    rw [indexChars_some, indexType_eq]
    congr 1

/-- An object type is told from the beginning of a text, if the types of its members are. -/
theorem object_append_injective {properties properties' : List (Property TypeExpr)}
    {index index' : Option (IndexSignature TypeExpr)}
    (h : ∀ member ∈ labelled properties index, (Member.type member).Told)
    (hother : ∀ member ∈ labelled properties' index', (Member.type member).WellFormed)
    {rest rest' : List Char}
    (heq : (object properties index).toChars ++ rest = (object properties' index').toChars ++ rest') :
    (object properties index).shown = (object properties' index').shown ∧ rest = rest' := by
  have hshown (properties : List (Property TypeExpr)) (index : Option (IndexSignature TypeExpr)) :
      labelled (propertiesShown properties) (indexShown index) =
        (labelled properties index).map Member.shown := by
    rw [Member.shown, map_labelled, propertiesShown_eq_map, indexShown_eq_map]
  -- Properties and index are compared as one list of labelled members.
  suffices hmembers : (labelled properties index).map Member.shown =
      (labelled properties' index').map Member.shown ∧ rest = rest' by
    rw [← hshown, ← hshown] at hmembers
    obtain ⟨hproperties, hindex⟩ := labelled_injective hmembers.1
    exact ⟨by rw [shown, shown, hproperties, hindex], hmembers.2⟩
  rw [toChars_object, toChars_object, memberChars_eq, memberChars_eq] at heq
  generalize labelled properties index = members at *
  generalize labelled properties' index' = members' at *
  cases members with
  | nil =>
    cases members' with
    | nil => exact ⟨rfl, (List.cons.inj (List.cons.inj heq).2).2⟩
    | cons member' members' => exact absurd (List.cons.inj (List.cons.inj heq).2).1 (by decide)
  | cons member members =>
    cases members' with
    | nil => exact absurd (List.cons.inj (List.cons.inj heq).2).1 (by decide)
    | cons member' members' =>
      -- A blank after the brace tells an object type with members from one without.
      have hbraced (member : Member) (members : List Member) (rest : List Char) :
          braced ((member :: members).map Member.chars) ++ rest =
            '{' :: ' ' :: ([';', ' '].intercalate ((member :: members).map Member.chars)
              ++ ' ' :: '}' :: rest) := by
        simp [braced]
      rw [hbraced, hbraced] at heq
      obtain ⟨hviews, hrests⟩ := Text.joined_append_injective Member.chars Member.shown
        Ends (fun rest => ∃ more, rest = ' ' :: '}' :: more)
        (fun rest => ends_cons (by decide)) (by rintro _ ⟨more, rfl⟩; exact ends_brace more)
        (by rintro _ rest' ⟨more, rfl⟩ heq; simp at heq)
        (fun x hx y hy rest rest' hrest hrest' heq =>
          Member.chars_append_injective (h x hx) (hother y hy) hrest hrest' heq)
        (List.cons_ne_nil _ _) (List.cons_ne_nil _ _) ⟨rest, rfl⟩ ⟨rest', rfl⟩
        (List.cons.inj (List.cons.inj heq).2).2
      exact ⟨hviews, (List.cons.inj (List.cons.inj hrests).2).2⟩

/-! ### Entries of tuple types -/

/-- An element of a tuple type, or the array type of its rest. -/
abbrev Entry : Type :=
  TypeExpr ⊕ TypeExpr

namespace Entry

/-- The type that is written. -/
def type : Entry → TypeExpr
  | .inl element => element
  | .inr rest => array rest

/-- The text of an entry. -/
def chars : Entry → List Char
  | .inl element => element.toChars
  | .inr rest => ['.', '.', '.'] ++ (array rest).toChars

/-- An entry without the marks that are not shown. -/
def shown : Entry → Entry :=
  Sum.map TypeExpr.shown TypeExpr.shown

end Entry

theorem entryChars_eq (elements : List TypeExpr) (rest : Option TypeExpr) :
    unionChars elements ++ restChars rest = (labelled elements rest).map Entry.chars := by
  rw [labelled, List.map_append, List.map_map, unionChars_eq_map]
  cases rest <;> rfl

/-! ### The beginning of a type -/

/-- Every text starts with a word, a string, a tuple, an object or a group, and after that with
    something that ends a word. -/
theorem exists_core (type : TypeExpr) (h : type.WellFormed) :
    ∃ (core : TypeExpr) (tail : List Char), core.isArray = false ∧ core.WellFormed ∧
      type.elementChars = core.elementChars ++ tail ∧ Breaks tail := by
  cases type with
  | array element =>
    obtain ⟨core, tail, harray, hcore, heq, htail⟩ := exists_core element h
    refine ⟨core, tail ++ ['[', ']'], harray, hcore, ?_, breaks_append htail ?_⟩
    · change arrayOf element element.toChars = _
      rw [arrayOf_eq, heq, List.append_assoc]
    · intro c hc
      rw [← Option.some.inj hc]
      decide
  | _ =>
    refine ⟨_, [], ?_, h, (List.append_nil _).symm, fun c hc => ?_⟩
    · rfl
    · simp at hc
termination_by sizeOf type

/-- The members of a union or of an intersection are written like elements of an array. -/
theorem toChars_eq_factors {type : TypeExpr} (h : type.WellFormed) (hunion : type.isUnion = false) :
    type.toChars = [' ', '&', ' '].intercalate (type.intersectionMembers.map elementChars) := by
  cases type with
  | union members => exact Bool.noConfusion hunion
  | intersection members =>
    rw [toChars_intersection]
    refine congrArg _ (List.map_congr_left fun member hmember => ?_)
    have hflat := h.2.1 member hmember
    cases member with
    | intersection members => exact Bool.noConfusion hflat
    | _ => rfl
  | _ => exact (List.intercalate_singleton ..).symm

theorem toChars_eq_terms (type : TypeExpr) :
    type.toChars = [' ', '|', ' '].intercalate (type.unionMembers.map toChars) := by
  cases type with
  | union members => exact toChars_union members
  | _ => exact (List.intercalate_singleton ..).symm

theorem unionMembers_ne_nil {type : TypeExpr} (h : type.WellFormed) : type.unionMembers ≠ [] := by
  cases type with
  | union members => exact List.ne_nil_of_length_pos (Nat.lt_of_lt_of_le Nat.zero_lt_two h.1)
  | _ => exact List.cons_ne_nil _ _

theorem intersectionMembers_ne_nil {type : TypeExpr} (h : type.WellFormed) :
    type.intersectionMembers ≠ [] := by
  cases type with
  | intersection members => exact List.ne_nil_of_length_pos (Nat.lt_of_lt_of_le Nat.zero_lt_two h.1)
  | _ => exact List.cons_ne_nil _ _

/-- A term of a well-formed type is well-formed and no union; it is the type itself or smaller. -/
theorem term_spec {type term : TypeExpr} (h : type.WellFormed) (hterm : term ∈ type.unionMembers) :
    term.WellFormed ∧ term.isUnion = false ∧ sizeOf term ≤ sizeOf type := by
  cases type with
  | union members =>
    have hsize := List.sizeOf_lt_of_mem (show term ∈ members from hterm)
    refine ⟨allWellFormed_iff.1 h.2.2 term hterm, h.2.1 term hterm, ?_⟩
    rw [union.sizeOf_spec]
    omega
  | _ =>
    rw [List.mem_singleton.1 hterm]
    exact ⟨h, rfl, Nat.le_refl _⟩

/-- A factor of a well-formed term is well-formed and no intersection; if it is a union, it is smaller
    than the term. -/
theorem factor_spec {type factor : TypeExpr} (h : type.WellFormed) (hunion : type.isUnion = false)
    (hfactor : factor ∈ type.intersectionMembers) :
    factor.WellFormed ∧ sizeOf factor ≤ sizeOf type ∧
      (factor.lead = .group → sizeOf factor < sizeOf type) := by
  cases type with
  | intersection members =>
    have hsize := List.sizeOf_lt_of_mem (show factor ∈ members from hfactor)
    refine ⟨allWellFormed_iff.1 h.2.2 factor hfactor, ?_, fun _ => ?_⟩ <;>
      rw [intersection.sizeOf_spec] <;> omega
  | union members => exact Bool.noConfusion hunion
  | literal value =>
    rw [List.mem_singleton.1 hfactor]
    exact ⟨h, Nat.le_refl _, fun hlead => by cases value <;> exact Lead.noConfusion hlead⟩
  | _ =>
    rw [List.mem_singleton.1 hfactor]
    exact ⟨h, Nat.le_refl _, fun hlead => Lead.noConfusion hlead⟩

theorem breaks_tailChars {separator : List Char} (hseparator : Breaks separator) (hne : separator ≠ [])
    (pieces : List (List Char)) : Breaks (Text.tailChars separator pieces) := by
  cases pieces with
  | nil =>
    intro c hc
    simp [Text.tailChars] at hc
  | cons piece pieces =>
    rw [Text.tailChars]
    · cases separator with
      | nil => exact absurd rfl hne
      | cons c separator => exact hseparator
    · simp

theorem exists_core_toChars {type : TypeExpr} (h : type.WellFormed) :
    ∃ (core : TypeExpr) (tail : List Char), core.isArray = false ∧ core.WellFormed ∧
      type.toChars = core.elementChars ++ tail ∧ Breaks tail := by
  -- The first factor of the first term comes first.
  obtain ⟨term, terms, hterms⟩ := List.exists_cons_of_ne_nil (unionMembers_ne_nil h)
  obtain ⟨hterm, hunion, -⟩ := term_spec h (hterms ▸ List.mem_cons_self)
  obtain ⟨factor, factors, hfactors⟩ := List.exists_cons_of_ne_nil (intersectionMembers_ne_nil hterm)
  obtain ⟨hfactor, -, -⟩ := factor_spec hterm hunion (hfactors ▸ List.mem_cons_self)
  obtain ⟨core, tail, harray, hcore, heq, htail⟩ := exists_core factor hfactor
  have hbar : Breaks [' ', '|', ' '] := fun c hc => by rw [← Option.some.inj hc]; decide
  have hand : Breaks [' ', '&', ' '] := fun c hc => by rw [← Option.some.inj hc]; decide
  refine ⟨core, tail ++ (Text.tailChars [' ', '&', ' '] (factors.map elementChars) ++
    Text.tailChars [' ', '|', ' '] (terms.map toChars)), harray, hcore, ?_,
    breaks_append htail (breaks_append (breaks_tailChars hand (List.cons_ne_nil _ _) _)
      (breaks_tailChars hbar (List.cons_ne_nil _ _) _))⟩
  rw [toChars_eq_terms, hterms, List.map_cons, Text.intercalate_cons_eq, toChars_eq_factors hterm hunion,
    hfactors, List.map_cons, Text.intercalate_cons_eq, heq]
  simp only [List.append_assoc]

theorem exists_lead_toChars {type : TypeExpr} (h : type.WellFormed) :
    ∃ c rest, type.toChars = c :: rest ∧ (lead? c).isSome = true := by
  obtain ⟨core, tail, harray, hcore, heq, -⟩ := exists_core_toChars h
  obtain ⟨c, rest, hchars, hlead⟩ := exists_lead hcore harray
  exact ⟨c, rest ++ tail, by rw [heq, hchars, List.cons_append], by rw [hlead]; rfl⟩

/-- The text of a type does not start with a character that starts none. -/
theorem toChars_append_ne_cons {type : TypeExpr} (h : type.WellFormed) {c : Char}
    (hc : lead? c = none) (rest rest' : List Char) : type.toChars ++ rest ≠ c :: rest' := by
  obtain ⟨d, ds, heq, hd⟩ := exists_lead_toChars h
  intro happend
  rw [heq, List.cons_append] at happend
  rw [(List.cons.inj happend).1, hc] at hd
  exact Bool.noConfusion hd

/-- No type is written like the mark of an index signature. -/
theorem toChars_ne_undefined {type : TypeExpr} (h : type.WellFormed) {rest rest' : List Char}
    (hrest : Breaks rest) (hrest' : Breaks rest') :
    type.toChars ++ rest ≠ "undefined".toList ++ rest' := by
  obtain ⟨core, tail, harray, hcore, heq, htail⟩ := exists_core_toChars h
  intro happend
  rw [heq, List.append_assoc] at happend
  obtain ⟨c, cs, hchars, hlead⟩ := exists_lead hcore harray
  have hc : c = 'u' := by
    rw [hchars] at happend
    exact (List.cons.inj happend).1
  have hkeyword : core.lead = .keyword := by
    rw [hc] at hlead
    exact (Option.some.inj hlead).symm
  exact keyword_ne_undefined (mem_keywords hkeyword harray) (breaks_append htail hrest) hrest' happend

/-! ### Tuple types -/

/-- An entry is told from the beginning of a text, if its type is. -/
theorem Entry.chars_append_injective {entry entry' : Entry} (h : entry.type.Told)
    (hwell : entry.type.WellFormed) (hentry' : entry'.type.WellFormed) {rest rest' : List Char}
    (hrest : Ends rest) (hrest' : Ends rest') (heq : entry.chars ++ rest = entry'.chars ++ rest') :
    entry.shown = entry'.shown ∧ rest = rest' := by
  cases entry with
  | inl element =>
    cases entry' with
    | inl element' =>
      obtain ⟨hshown, hrests⟩ := h.append_injective hentry' hrest hrest' heq
      exact ⟨congrArg Sum.inl hshown, hrests⟩
    | inr other => exact absurd heq (toChars_append_ne_cons hwell rfl _ _)
  | inr other =>
    cases entry' with
    | inl element' => exact absurd heq.symm (toChars_append_ne_cons hentry' rfl _ _)
    | inr other' =>
      rw [Entry.chars, Entry.chars, List.append_assoc, List.append_assoc] at heq
      obtain ⟨hshown, hrests⟩ := h.append_injective hentry' hrest hrest' (List.append_cancel_left heq)
      exact ⟨congrArg Sum.inr (array.inj hshown), hrests⟩

theorem Entry.chars_ne_bracket {entry : Entry} (h : entry.type.WellFormed) (rest rest' : List Char) :
    entry.chars ++ rest ≠ ']' :: rest' := by
  cases entry with
  | inl element => exact toChars_append_ne_cons h rfl _ _
  | inr other =>
    intro heq
    exact absurd (List.cons.inj heq).1 (by decide)

/-- A tuple type is told from the beginning of a text, if the types of its entries are. -/
theorem tuple_append_injective {elements elements' : List TypeExpr} {last last' : Option TypeExpr}
    (h : ∀ entry ∈ labelled elements last, (Entry.type entry).Told ∧ (Entry.type entry).WellFormed)
    (hother : ∀ entry ∈ labelled elements' last', (Entry.type entry).WellFormed)
    {rest rest' : List Char}
    (heq : (tuple elements last).toChars ++ rest = (tuple elements' last').toChars ++ rest') :
    (tuple elements last).shown = (tuple elements' last').shown ∧ rest = rest' := by
  have hshown (elements : List TypeExpr) (last : Option TypeExpr) :
      labelled (allShown elements) (restShown last) = (labelled elements last).map Entry.shown := by
    rw [Entry.shown, map_labelled, allShown_eq_map, restShown_eq_map]
  -- Elements and rest are compared as one list of labelled entries.
  suffices hentries : (labelled elements last).map Entry.shown =
      (labelled elements' last').map Entry.shown ∧ rest = rest' by
    rw [← hshown, ← hshown] at hentries
    obtain ⟨helements, hlast⟩ := labelled_injective hentries.1
    exact ⟨by rw [shown, shown, helements, hlast], hentries.2⟩
  have hbracket (entries : List Entry) (rest : List Char) :
      '[' :: ([',', ' '].intercalate (entries.map Entry.chars) ++ [']']) ++ rest =
        '[' :: ([',', ' '].intercalate (entries.map Entry.chars) ++ ']' :: rest) := by
    simp
  rw [toChars_tuple, toChars_tuple, entryChars_eq, entryChars_eq, hbracket, hbracket] at heq
  replace heq := (List.cons.inj heq).2
  generalize labelled elements last = entries at *
  generalize labelled elements' last' = entries' at *
  cases entries with
  | nil =>
    cases entries' with
    | nil => exact ⟨rfl, (List.cons.inj heq).2⟩
    | cons entry' entries' =>
      rw [List.map_cons, Text.intercalate_cons_eq, List.append_assoc] at heq
      exact absurd heq.symm (Entry.chars_ne_bracket (hother entry' List.mem_cons_self) _ _)
  | cons entry entries =>
    cases entries' with
    | nil =>
      rw [List.map_cons, Text.intercalate_cons_eq, List.append_assoc] at heq
      exact absurd heq (Entry.chars_ne_bracket (h entry List.mem_cons_self).2 _ _)
    | cons entry' entries' =>
      -- Both lists have entries, which are told apart by the separators between them.
      obtain ⟨hviews, hrests⟩ := Text.joined_append_injective Entry.chars Entry.shown
        Ends (fun rest => ∃ more, rest = ']' :: more)
        (fun rest => ends_cons (by decide)) (by rintro _ ⟨more, rfl⟩; exact ends_cons (by decide))
        (by rintro _ rest' ⟨more, rfl⟩ heq; simp at heq)
        (fun x hx y hy rest rest' hrest hrest' heq =>
          Entry.chars_append_injective (h x hx).1 (h x hx).2 (hother y hy) hrest hrest' heq)
        (List.cons_ne_nil _ _) (List.cons_ne_nil _ _) ⟨rest, rfl⟩ ⟨rest', rfl⟩ heq
      exact ⟨hviews, (List.cons.inj hrests).2⟩

end Typewright.TypeExpr
