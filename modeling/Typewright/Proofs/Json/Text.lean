import Typewright.Json.Basic
import Typewright.Proofs.Json.NumberText

/-!
# Values are told apart by their text

The compact text of a value can be read back without looking past its end: a text that starts with
the text of a value, and goes on with nothing or with a character that ends a value, starts with the
text of no other value (`toChars_append_injective`).  So different values have different texts
(`Json.text_injective`).
-/

namespace Typewright

namespace Text

/-! ### Quoted strings -/

/-- The value of a hexadecimal digit in lower case. -/
def hexValue (c : Char) : Nat :=
  if c.isDigit then c.toNat - '0'.toNat else c.toNat - 'a'.toNat + 10

/-- Reads the first character of a quoted text. -/
def unescape : List Char → Option (Char × List Char)
  | '\\' :: '"' :: rest => some ('"', rest)
  | '\\' :: '\\' :: rest => some ('\\', rest)
  | '\\' :: 'n' :: rest => some ('\n', rest)
  | '\\' :: 'r' :: rest => some ('\r', rest)
  | '\\' :: 't' :: rest => some ('\t', rest)
  | '\\' :: 'b' :: rest => some (Char.ofNat 0x08, rest)
  | '\\' :: 'f' :: rest => some (Char.ofNat 0x0C, rest)
  | '\\' :: 'u' :: '0' :: '0' :: high :: low :: rest =>
    some (Char.ofNat (16 * hexValue high + hexValue low), rest)
  | '"' :: _ => none
  | c :: rest => some (c, rest)
  | [] => none

theorem hexValue_hexDigit : ∀ n < 16, hexValue (hexDigit n) = n := by
  decide

/-- An escaped character is read back, and what follows is left. -/
theorem unescape_escapeChar (c : Char) (rest : List Char) :
    unescape (escapeChar c ++ rest) = some (c, rest) := by
  unfold escapeChar
  split
  · next h => rw [h]; rfl
  split
  · next h => rw [h]; rfl
  split
  · next h => rw [h]; rfl
  split
  · next h => rw [h]; rfl
  split
  · next h => rw [h]; rfl
  split
  · next h => rw [← Char.ofNat_toNat c, h]; rfl
  split
  · next h => rw [← Char.ofNat_toNat c, h]; rfl
  split
  · next h =>
    change some (Char.ofNat (16 * hexValue (hexDigit (c.toNat / 16)) +
      hexValue (hexDigit (c.toNat % 16))), rest) = _
    rw [hexValue_hexDigit _ (by omega), hexValue_hexDigit _ (by omega), Nat.div_add_mod,
      Char.ofNat_toNat]
  · next hquote hslash _ _ _ _ _ _ =>
    -- Any other character stands for itself.
    simp only [List.cons_append, List.nil_append]
    unfold unescape
    split <;> simp_all

/-- A quoted text ends at its own closing quote, so it can be told from what follows. -/
theorem quoteChars_append_injective {cs ds rest rest' : List Char}
    (h : quoteChars cs ++ rest = quoteChars ds ++ rest') : cs = ds ∧ rest = rest' := by
  have hquote : ∀ cs rest : List Char,
      quoteChars cs ++ rest = '"' :: (cs.flatMap escapeChar ++ '"' :: rest) := by
    intro cs rest
    simp [quoteChars]
  rw [hquote, hquote, List.cons.injEq] at h
  replace h := h.2
  -- Reading off one character makes both texts shorter, or tells them apart.
  induction cs generalizing ds with
  | nil =>
    cases ds with
    | nil => simpa using h
    | cons d ds =>
      have := congrArg unescape h
      rw [List.flatMap_cons, List.append_assoc, unescape_escapeChar] at this
      simp [unescape] at this
  | cons c cs ih =>
    cases ds with
    | nil =>
      have := congrArg unescape h
      rw [List.flatMap_cons, List.append_assoc, unescape_escapeChar] at this
      simp [unescape] at this
    | cons d ds =>
      have := congrArg unescape h
      rw [List.flatMap_cons, List.flatMap_cons, List.append_assoc, List.append_assoc,
        unescape_escapeChar, unescape_escapeChar, Option.some.injEq, Prod.mk.injEq] at this
      obtain ⟨rfl, hrest⟩ := this
      obtain ⟨rfl, rfl⟩ := ih hrest
      exact ⟨rfl, rfl⟩

end Text

namespace Json

/-! ### Where a value ends -/

/-- Nothing follows, or a character that ends a value. -/
def Closed (rest : List Char) : Prop :=
  ∀ c ∈ rest.head?, c = ',' ∨ c = ']' ∨ c = '}'

/-- The kind of the values whose text starts with a character. -/
def leadKind? (c : Char) : Option Kind :=
  if c = 'n' then some .null
  else if c = 't' ∨ c = 'f' then some .boolean
  else if c = '"' then some .string
  else if c = '[' then some .array
  else if c = '{' then some .object
  else if c = '-' ∨ c.isDigit then some .number
  else none

/-- The first character of a text tells the kind of the value. -/
theorem exists_lead (value : Json) :
    ∃ c rest, value.toChars = c :: rest ∧ leadKind? c = some value.kind := by
  cases value with
  | null => exact ⟨'n', _, rfl, rfl⟩
  | bool b => cases b <;> exact ⟨_, _, rfl, rfl⟩
  | number n =>
    obtain ⟨c, rest, hn, hc⟩ := Number.exists_toChars_eq_cons n
    refine ⟨c, rest, hn, ?_⟩
    -- A number starts with a digit or a minus, and so with none of the characters asked for before.
    have hne {d : Char} (hd : d.isDigit = false) (hminus : d ≠ '-') : c ≠ d := by
      rintro rfl
      rcases hc with hc | hc
      · exact hminus hc
      · rw [hd] at hc
        exact Bool.noConfusion hc
    unfold leadKind?
    rw [if_neg (hne rfl (by decide)), if_neg (not_or.2 ⟨hne rfl (by decide), hne rfl (by decide)⟩),
      if_neg (hne rfl (by decide)), if_neg (hne rfl (by decide)), if_neg (hne rfl (by decide)),
      if_pos hc]
    rfl
  | string s => exact ⟨'"', _, rfl, rfl⟩
  | array items => exact ⟨'[', _, rfl, rfl⟩
  | object fields => exact ⟨'{', _, rfl, rfl⟩

/-- The first character shows the kind of a value. -/
theorem kind_eq_of_append_eq {v w : Json} {rest rest' : List Char}
    (h : v.toChars ++ rest = w.toChars ++ rest') : v.kind = w.kind := by
  obtain ⟨c, cs, hv, hc⟩ := exists_lead v
  obtain ⟨d, ds, hw, hd⟩ := exists_lead w
  rw [hv, hw, List.cons_append, List.cons_append, List.cons.injEq] at h
  rw [h.1, hd, Option.some.injEq] at hc
  exact hc.symm

/-- The text of a value does not start with a character that starts none. -/
theorem toChars_append_ne_cons {v : Json} {rest rest' : List Char} {c : Char}
    (hc : leadKind? c = none) : v.toChars ++ rest ≠ c :: rest' := by
  obtain ⟨d, ds, hv, hd⟩ := exists_lead v
  intro h
  rw [hv, List.cons_append, List.cons.injEq] at h
  rw [h.1, hc] at hd
  exact absurd hd (by simp)

/-- Digits end where something else begins, so a number can be told from what follows. -/
theorem number_append_injective {m n : Number} {rest rest' : List Char} (hrest : Closed rest)
    (hrest' : Closed rest') (h : m.toChars ++ rest = n.toChars ++ rest') : m = n ∧ rest = rest' := by
  -- No character of a number ends a value, so the text of the number can be cut off.
  have htake : ∀ (n : Number) (rest : List Char), Closed rest →
      (n.toChars ++ rest).takeWhile Number.isNumberChar = n.toChars := by
    intro n rest hrest
    rw [List.takeWhile_append_of_pos fun _ => Number.isNumberChar_of_mem_toChars]
    cases rest with
    | nil => simp
    | cons c rest =>
      have hc : Number.isNumberChar c = false := by
        rcases hrest c rfl with rfl | rfl | rfl <;> rfl
      rw [List.takeWhile_cons_of_neg (by rw [hc]; exact Bool.false_ne_true), List.append_nil]
  have hchars : m.toChars = n.toChars := by
    rw [← htake m rest hrest, ← htake n rest' hrest', h]
  obtain rfl := Number.toChars_injective hchars
  exact ⟨rfl, List.append_cancel_left h⟩

/-! ### Lists of values -/

/-- The items after the first one, each after a comma. -/
def moreItems : List Json → List Char
  | [] => []
  | items => ',' :: itemsToChars items

/-- The fields after the first one, each after a comma. -/
def moreFields : List (String × Json) → List Char
  | [] => []
  | fields => ',' :: fieldsToChars fields

theorem itemsToChars_cons (item : Json) (items : List Json) :
    itemsToChars (item :: items) = item.toChars ++ moreItems items := by
  cases items <;> simp [itemsToChars, moreItems]

theorem fieldsToChars_cons (name : String) (value : Json) (fields : List (String × Json)) :
    fieldsToChars ((name, value) :: fields) =
      Text.quoteChars name.toList ++ ':' :: (value.toChars ++ moreFields fields) := by
  cases fields <;> simp [fieldsToChars, moreFields]

/-- After an item comes a comma or the closing bracket. -/
theorem closed_moreItems (items : List Json) (rest : List Char) :
    Closed (moreItems items ++ ']' :: rest) := by
  cases items <;> simp [moreItems, Closed]

/-- After a field comes a comma or the closing brace. -/
theorem closed_moreFields (fields : List (String × Json)) (rest : List Char) :
    Closed (moreFields fields ++ '}' :: rest) := by
  cases fields <;> simp [moreFields, Closed]

mutual

/-- A text starts with the text of at most one value that ends there. -/
theorem toChars_append_injective (v w : Json) (rest rest' : List Char) (hrest : Closed rest)
    (hrest' : Closed rest') (h : v.toChars ++ rest = w.toChars ++ rest') : v = w ∧ rest = rest' := by
  -- The first character gives the kind away, which leaves one constructor for the other value.
  have hkind := kind_eq_of_append_eq h
  cases v with
  | null => cases w <;> simp_all [kind, toChars]
  | bool a =>
    cases w with
    | bool b => cases a <;> cases b <;> simp_all [toChars]
    | _ => simp [kind] at hkind
  | number m =>
    cases w with
    | number n =>
      obtain ⟨rfl, hrest⟩ := number_append_injective hrest hrest' h
      exact ⟨rfl, hrest⟩
    | _ => simp [kind] at hkind
  | string s =>
    cases w with
    | string t =>
      obtain ⟨hst, hrest⟩ := Text.quoteChars_append_injective h
      exact ⟨by rw [String.toList_inj.1 hst], hrest⟩
    | _ => simp [kind] at hkind
  | array items =>
    cases w with
    | array others =>
      simp only [toChars, List.cons_append, List.append_assoc, List.cons.injEq, true_and,
        List.nil_append] at h
      obtain ⟨rfl, hrest⟩ := itemsToChars_append_injective items others rest rest' h
      exact ⟨rfl, hrest⟩
    | _ => simp [kind] at hkind
  | object fields =>
    cases w with
    | object others =>
      simp only [toChars, List.cons_append, List.append_assoc, List.cons.injEq, true_and,
        List.nil_append] at h
      obtain ⟨rfl, hrest⟩ := fieldsToChars_append_injective fields others rest rest' h
      exact ⟨rfl, hrest⟩
    | _ => simp [kind] at hkind
termination_by structural v

theorem itemsToChars_append_injective (items others : List Json) (rest rest' : List Char)
    (h : itemsToChars items ++ ']' :: rest = itemsToChars others ++ ']' :: rest') :
    items = others ∧ rest = rest' := by
  cases items with
  | nil =>
    cases others with
    | nil => simpa [itemsToChars] using h
    | cons other others =>
      rw [itemsToChars_cons, List.append_assoc] at h
      exact absurd h.symm (toChars_append_ne_cons rfl)
  | cons item items =>
    cases others with
    | nil =>
      rw [itemsToChars_cons, List.append_assoc] at h
      exact absurd h (toChars_append_ne_cons rfl)
    | cons other others =>
      rw [itemsToChars_cons, itemsToChars_cons, List.append_assoc, List.append_assoc] at h
      -- What follows an item closes it, so the two first items are equal.
      obtain ⟨rfl, hmore⟩ := toChars_append_injective item other _ _ (closed_moreItems _ _)
        (closed_moreItems _ _) h
      cases items with
      | nil => cases others <;> simp_all [moreItems]
      | cons next items =>
        cases others with
        | nil => simp [moreItems] at hmore
        | cons next' others =>
          obtain ⟨heq, hrest⟩ := itemsToChars_append_injective (next :: items) (next' :: others)
            rest rest' (List.cons.inj hmore).2
          exact ⟨by rw [heq], hrest⟩
termination_by structural items

theorem fieldsToChars_append_injective (fields others : List (String × Json))
    (rest rest' : List Char)
    (h : fieldsToChars fields ++ '}' :: rest = fieldsToChars others ++ '}' :: rest') :
    fields = others ∧ rest = rest' := by
  cases fields with
  | nil =>
    cases others with
    | nil => simpa [fieldsToChars] using h
    | cons other others =>
      obtain ⟨name, value⟩ := other
      rw [fieldsToChars_cons] at h
      simp [fieldsToChars, Text.quoteChars] at h
  | cons field fields =>
    obtain ⟨name, value⟩ := field
    cases others with
    | nil =>
      rw [fieldsToChars_cons] at h
      simp [fieldsToChars, Text.quoteChars] at h
    | cons other others =>
      obtain ⟨name', value'⟩ := other
      rw [fieldsToChars_cons, fieldsToChars_cons, List.append_assoc, List.append_assoc] at h
      -- The name ends with its closing quote, and what comes after the colon starts both values.
      obtain ⟨hname, hvalue⟩ := Text.quoteChars_append_injective h
      rw [List.cons_append, List.cons_append, List.cons.injEq, List.append_assoc,
        List.append_assoc] at hvalue
      obtain ⟨rfl, hmore⟩ := toChars_append_injective value value' _ _ (closed_moreFields _ _)
        (closed_moreFields _ _) hvalue.2
      rw [String.toList_inj] at hname
      cases fields with
      | nil => cases others <;> simp_all [moreFields]
      | cons next fields =>
        cases others with
        | nil => simp [moreFields] at hmore
        | cons next' others =>
          obtain ⟨heq, hrest⟩ := fieldsToChars_append_injective (next :: fields) (next' :: others)
            rest rest' (List.cons.inj hmore).2
          exact ⟨by rw [heq, hname], hrest⟩
termination_by structural fields

end

/-- Different values have different texts. -/
theorem text_injective {v w : Json} (h : v.text = w.text) : v = w := by
  have hchars : v.toChars ++ [] = w.toChars ++ [] := by
    rw [List.append_nil, List.append_nil]
    exact String.ofList_inj.1 h
  have hclosed : Closed [] := fun c hc => by simp at hc
  exact (toChars_append_injective v w [] [] hclosed hclosed hchars).1

end Json

end Typewright
