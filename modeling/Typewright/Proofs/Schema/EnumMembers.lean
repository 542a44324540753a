import Typewright.Proofs.Json.Text
import Typewright.Proofs.Schema.Mirrored
import Typewright.Proofs.Text.Distinct

/-!
# The members of enum declarations

An enumeration of strings is declared as an enum whose members are the different strings in the order
in which they first occur (`EnumDeclaration.Faithful.values_eq`).  A member is named by the identifier
of its value, numbered if a member before it has that name; so all names differ, also where a numbered
name is the identifier of a later value.

`Schema.enum_declaration_faithful` says when an enum is declared (`Schema.DeclaresEnum`), and that it is
faithful.
-/

namespace Typewright

open Naming (identifier numbered SearchEndsAt)

namespace EnumDeclaration

variable {taken values : List String} {member : EnumMember}

/-! ### Names of members -/

/-- The search for the name of a member ends at the first name that neither is taken nor names a member
    before it. -/
theorem exists_searchEndsAt_of_membersFrom {before after : List EnumMember}
    (h : membersFrom taken values = before ++ member :: after) :
    ∃ n ≤ taken.length + before.length, member.name = numbered (identifier member.value) n ∧
      SearchEndsAt (fun name => decide (name ∉ taken ∧ name ∉ before.map EnumMember.name))
        (identifier member.value) n := by
  induction values generalizing taken before with
  | nil => exact absurd h (by simp [membersFrom])
  | cons value values ih =>
    rw [membersFrom] at h
    cases before with
    | nil =>
      obtain ⟨rfl, -⟩ := List.cons.inj h
      obtain ⟨n, hn, hname, hnew, hpassed⟩ := Naming.exists_fresh_first taken (identifier value)
      refine ⟨n, hn, hname, by simpa using hnew, fun m hm => ?_⟩
      simpa using hpassed m hm
    | cons first before =>
      obtain ⟨rfl, hrest⟩ := List.cons.inj h
      obtain ⟨n, hn, hname, hends⟩ := ih hrest
      rw [List.length_cons] at hn ⊢
      -- The name of the first member is taken for the members after it.
      refine ⟨n, by omega, hname, hends.congr fun name => decide_eq_decide.2 ?_⟩
      rw [List.map_cons, List.mem_cons, List.mem_cons]
      tauto

/-- The names of the members differ from one another and from the names that are taken. -/
theorem nodup_membersFrom (taken values : List String) :
    ((membersFrom taken values).map EnumMember.name).Nodup ∧
      ∀ name ∈ (membersFrom taken values).map EnumMember.name, name ∉ taken := by
  induction values generalizing taken with
  | nil => simp [membersFrom]
  | cons value values ih =>
    obtain ⟨n, -, hname, hnew, -⟩ := Naming.exists_fresh_first taken (identifier value)
    rw [← hname] at hnew
    obtain ⟨hnodup, hrest⟩ := ih (Naming.fresh taken (identifier value) :: taken)
    rw [membersFrom, List.map_cons]
    refine ⟨List.nodup_cons.2 ⟨fun hmem => hrest _ hmem List.mem_cons_self, hnodup⟩, ?_⟩
    refine List.forall_mem_cons.2 ⟨hnew, fun name hmem hname => ?_⟩
    exact hrest name hmem (List.mem_cons_of_mem _ hname)

/-- The members of the declaration are the different strings among the values, in the order in which
    they first occur, under names that are made from them. -/
structure Faithful (declaration : EnumDeclaration) (values : List Json) : Prop where
  values_eq : declaration.members.map EnumMember.value =
    (values.filterMap Json.asString?).eraseDups
  nodup : (declaration.members.map EnumMember.name).Nodup
  identifier_eq : ∀ member ∈ declaration.members, identifier member.name = member.name
  /-- The search for each name ends at the first numbered name that no member before has. -/
  numbered : ∀ before member after, declaration.members = before ++ member :: after →
    ∃ n ≤ before.length, member.name = numbered (identifier member.value) n ∧
      SearchEndsAt (fun name => decide (name ∉ before.map EnumMember.name)) (identifier member.value) n

theorem faithful_ofValues (name : String) (values : List Json) :
    (ofValues name (values.filterMap Json.asString?).eraseDups).Faithful values where
  values_eq := map_value_membersFrom [] _
  nodup := (nodup_membersFrom [] _).1
  identifier_eq := by
    intro member hmember
    obtain ⟨before, after, hsplit⟩ := List.append_of_mem hmember
    obtain ⟨n, -, hname, -⟩ := exists_searchEndsAt_of_membersFrom hsplit
    rw [hname, ← Naming.identifier_numbered, Naming.identifier_identifier]
  numbered := by
    intro before member after hsplit
    obtain ⟨n, hn, hname, hends⟩ := exists_searchEndsAt_of_membersFrom hsplit
    refine ⟨n, by simpa using hn, hname, ?_⟩
    simpa using hends

example : (ofValues "Order" ["a-b", "a b", "AB2"]).members.map EnumMember.name =
    ["AB", "AB2", "AB22"] := by
  decide

end EnumDeclaration

namespace Schema

variable {context : Context} {values : List Json}

/-! ### Declared enumerations -/

/-- The enumeration is declared as an enum: the options ask for it, all values are strings, and they are
    not all one string. -/
structure DeclaresEnum (context : Context) (values : List Json) : Prop where
  asked : context.options.realEnums = true
  strings : ∀ value ∈ values, value.kind = .string
  several : 2 ≤ (values.filterMap Json.asString?).eraseDups.length

theorem text_string_injective : Function.Injective (Json.text ∘ Json.string) := fun _ _ h =>
  Json.string.inj (Json.text_injective h)

/-- Strings that have one text are one string. -/
theorem distinctBy_text_map_string (texts : List String) :
    Text.distinctBy Json.text (texts.map .string) = texts.eraseDups.map .string :=
  Text.distinctBy_map text_string_injective texts

theorem filterMap_asString?_map (texts : List String) :
    (texts.map Json.string).filterMap Json.asString? = texts := by
  rw [List.filterMap_map]
  exact List.filterMap_some

theorem eq_map_string_of_strings (h : ∀ value ∈ values, value.kind = .string) :
    values = (values.filterMap Json.asString?).map .string := by
  refine eq_map_string_of_length_eq (List.filterMap_length_eq_length.2 fun value hvalue => ?_)
  have hkind := h value hvalue
  cases value <;> simp_all [Json.kind, Json.asString?]

/-- What decides that an enum is declared, in terms of the values that differ by their texts. -/
theorem declaresEnum_iff :
    (context.options.realEnums && decide (2 ≤ (Text.distinctBy Json.text values).length) &&
      ((Text.distinctBy Json.text values).filterMap Json.asString?).length ==
        (Text.distinctBy Json.text values).length) = true ↔ DeclaresEnum context values := by
  rw [Bool.and_eq_true, Bool.and_eq_true, decide_eq_true_iff, beq_iff_eq]
  constructor
  · rintro ⟨⟨hasked, hseveral⟩, hlength⟩
    have hdistinct := eq_map_string_of_length_eq hlength
    have hstrings : ∀ value ∈ values, value.kind = .string := by
      intro value hvalue
      -- A value that is dropped has the text of one that is kept, so it is the same value.
      obtain ⟨kept, hkept, htext⟩ : ∃ kept ∈ Text.distinctBy Json.text values,
        kept.text = value.text := Text.exists_mem_distinctBy hvalue
      rw [hdistinct] at hkept
      obtain ⟨text, -, htexts⟩ := List.mem_map.1 hkept
      rw [← Json.text_injective htext, ← htexts]
      rfl
    have hvalues := eq_map_string_of_strings hstrings
    rw [hvalues, distinctBy_text_map_string, List.length_map] at hseveral
    exact ⟨hasked, hstrings, hseveral⟩
  · rintro ⟨hasked, hstrings, hseveral⟩
    rw [eq_map_string_of_strings hstrings, distinctBy_text_map_string, filterMap_asString?_map,
      List.length_map]
    exact ⟨⟨hasked, hseveral⟩, rfl⟩

theorem distinct_strings_eq (h : ∀ value ∈ values, value.kind = .string) :
    (Text.distinctBy Json.text values).filterMap Json.asString? =
      (values.filterMap Json.asString?).eraseDups := by
  have hvalues := eq_map_string_of_strings h
  have hdistinct := distinctBy_text_map_string (values.filterMap Json.asString?)
  rw [← hvalues] at hdistinct
  rw [hdistinct, filterMap_asString?_map]

/-- The typing of an enumeration: where it is declared as an enum, the declaration is faithful and the
    type refers to it; elsewhere nothing is declared. -/
structure TypesEnum (context : Context) (values : List Json) (typing : Typing) : Prop where
  declared : DeclaresEnum context values → ∃ enum : EnumDeclaration,
    typing.types = [.reference (EnumDeclaration.pathOf enum.name)] ∧
      typing.emitted.fragments = [enum.toFragment] ∧ enum.Faithful values
  plain : ¬ DeclaresEnum context values → typing.emitted.fragments = []

theorem exists_yields_enumTyping (context : Context) (facts : Facts) (values : List Json)
    (names : EnumNames) :
    ∃ typing names', (enumTyping context facts (.array values)).Yields names typing names' ∧
      TypesEnum context values typing := by
  -- Either way there is a typing, and the two ways exclude each other.
  by_cases hdeclares : DeclaresEnum context values
  · have hrun : enumTyping context facts (.array values) =
        realEnumTyping context facts (values.filterMap Json.asString?).eraseDups := by
      rw [enumTyping, ← distinct_strings_eq hdeclares.strings]
      exact if_pos (declaresEnum_iff.2 hdeclares)
    rw [hrun]
    refine ⟨_, _, yields_realEnumTyping_iff.2 ⟨rfl, rfl⟩, fun _ => ?_, absurd hdeclares⟩
    exact ⟨_, rfl, rfl, EnumDeclaration.faithful_ofValues _ values⟩
  · have hrun : enumTyping context facts (.array values) =
        pure (Typing.ofTypes ((Text.distinctBy Json.text values).map TypeExpr.ofConst)) := by
      rw [enumTyping]
      exact if_neg (mt declaresEnum_iff.1 hdeclares)
    rw [hrun]
    exact ⟨_, names, Run.yields_pure_iff.2 ⟨rfl, rfl⟩, fun h => absurd h hdeclares, fun _ => rfl⟩

/-- A schema that its `enum` decides always has a typing, and that is the one of the enumeration, with a
    faithful declaration where an enum is declared. -/
theorem enum_declaration_faithful (context : Context) {parent : Option Json}
    {fields : List (String × Json)} {values : List Json}
    (hshape : (Facts.ofJson (.object fields)).shape context.location parent =
      .ok (.enum (.array values)))
    (names : EnumNames) :
    ∃ typing names',
      ((ofJson (.object fields)).typing context parent).Yields names typing names' ∧
        TypesEnum context values typing := by
  rw [typing_object, hshape]
  exact exists_yields_enumTyping context _ values names

/-- Values that share an identifier, one whose identifier is a numbered name, and a repetition. -/
def collidingValues : List Json :=
  [.string "a-b", .string "a b", .string "AB2", .string "a-b"]

theorem enum_declaration_faithful_collidingValues :
    let context : Context := { options := { realEnums := true }, baseName := "Root" }
    let schema : Json := .object [("enum", .array collidingValues)]
    (Facts.ofJson schema).shape context.location none = .ok (.enum (.array collidingValues)) ∧
    ∃ typing names', ((ofJson schema).typing context none).Yields [] typing names' ∧
      ∃ enum : EnumDeclaration, typing.types = [.reference (EnumDeclaration.pathOf enum.name)] ∧
        typing.emitted.fragments = [enum.toFragment] ∧ enum.Faithful collidingValues := by
  intro context schema
  have hshape : (Facts.ofJson schema).shape context.location none =
      .ok (.enum (.array collidingValues)) := rfl
  have hdeclares : DeclaresEnum context collidingValues := ⟨rfl, by decide, by decide⟩
  obtain ⟨typing, names', hyields, htypes⟩ := enum_declaration_faithful context hshape []
  exact ⟨hshape, typing, names', hyields, htypes.declared hdeclares⟩

end Schema

end Typewright
