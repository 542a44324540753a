import Typewright.Proofs.Decimal.Shortest
import Typewright.Proofs.Schema.Ensures
import Typewright.Proofs.Schema.Validity

/-!
# Object and array types admit the values of a schema

The object type of a schema holds the objects that the schema describes, and its array type the
arrays (`Schema.ensures_objectTypingOf`, `Schema.ensures_arrayTypingOf`), provided the schemas inside
are typed soundly (`Schema.Grounds`).
-/

namespace Typewright

namespace Context

/-- The values at a reference belong to the type that is declared for it. -/
def Agrees (context : Context) (G : List String → Json → Prop) (target : String → Json → Prop) :
    Prop :=
  ∀ reference value, target reference value → G (context.pathOf reference) value

theorem Agrees.descend {context : Context} {G : List String → Json → Prop}
    {target : String → Json → Prop} (h : context.Agrees G target) (segment : String) :
    (context.descend segment).Agrees G target :=
  h

theorem Agrees.named {context : Context} {G : List String → Json → Prop}
    {target : String → Json → Prop} (h : context.Agrees G target) (hint : String) :
    (context.named hint).Agrees G target :=
  h

/-- No brand applies to the schema or to a schema inside it. -/
def Unbranded (context : Context) (schema : Json) : Prop :=
  (∀ brand ∈ context.brand,
    context.options.isBranded (Naming.identifier brand) context.schemaNames = false) ∧
  ∀ inner, inner = schema ∨ inner.Inside schema → ∀ title ∈ inner.string? "title",
    context.options.isBranded (Naming.identifier title) context.schemaNames = false

namespace Unbranded

variable {context : Context} {schema inner : Json}

theorem descend (h : context.Unbranded schema) (hinside : inner.Inside schema) (segment : String) :
    (context.descend segment).Unbranded inner := by
  refine ⟨fun brand hbrand => by simp [Context.descend] at hbrand, fun inmost hinmost => ?_⟩
  refine h.2 inmost (.inr ?_)
  rcases hinmost with rfl | hinmost
  · exact hinside
  · exact hinmost.trans hinside

/-- Below a keyword the name of a member or its index follows. -/
theorem descend' (h : context.Unbranded schema) (segment : String) :
    (context.descend segment).Unbranded schema :=
  ⟨fun brand hbrand => by simp [Context.descend] at hbrand, h.2⟩

theorem named (h : context.Unbranded schema) (hint : String) : (context.named hint).Unbranded schema :=
  h

end Unbranded

end Context

namespace Schema

variable {G : List String → Json → Prop} {target : String → Json → Prop}

/-- Every value of the handed down type that meets the schema belongs to one of the types. -/
def Sound (G : List String → Json → Prop) (target : String → Json → Prop) (parent : Option Json)
    (schema : Json) (typing : Typing) : Prop :=
  ∀ value, (∀ declared ∈ parent, OfTypes declared value) → Valid true target schema value →
    typing.Covers G value

/-- The typings of a schema are sound wherever it stands. -/
def TypesSoundly (G : List String → Json → Prop) (target : String → Json → Prop) (schema : Json) :
    Prop :=
  ∀ context parent, context.Agrees G target → context.Unbranded schema →
    Run.Ensures G ((ofJson schema).typing context parent) (Sound G target parent schema)

/-- What the rules for a schema rest on: the environment agrees with the context, no brand applies,
    and the schemas inside are typed soundly. -/
structure Grounds (G : List String → Json → Prop) (target : String → Json → Prop) (context : Context)
    (fields : List (String × Json)) : Prop where
  agrees : context.Agrees G target
  unbranded : context.Unbranded (.object fields)
  inner : ∀ inner, inner.Inside (.object fields) → TypesSoundly G target inner

/-! ### Lists of schemas -/

theorem ensures_itemTypings {context : Context} {parent : Option Json} {items : List Json}
    (hagrees : context.Agrees G target)
    (h : ∀ item ∈ items, TypesSoundly G target item ∧
      ∀ segment, (context.descend segment).Unbranded item)
    (index : Nat) :
    Run.Ensures G (itemTypings context parent index (ofItems items))
      (List.Forall₂ (Sound G target parent) items) := by
  induction items generalizing index with
  | nil =>
    rw [ofItems, itemTypings]
    exact Run.ensures_pure .nil
  | cons item items ih =>
    obtain ⟨hsound, hunbranded⟩ := h item List.mem_cons_self
    rw [ofItems, itemTypings]
    refine Run.ensures_bind (hsound _ parent (hagrees.descend _) (hunbranded _)) fun first => ?_
    refine Run.ensures_bind (ih (fun item hitem => h item (List.mem_cons_of_mem _ hitem)) _)
      fun others => ?_
    exact Run.ensures_pure fun hothers hfirst => .cons hfirst hothers

/-- A named schema with its typing: the name is kept and the typing sound. -/
def NamedSoundly (G : List String → Json → Prop) (target : String → Json → Prop)
    (field : String × Json) (named : NamedTyping) : Prop :=
  named.name = field.1 ∧ Sound G target none field.2 named.typing

theorem ensures_fieldTypings {context : Context} {hinting : Bool} {fields : List (String × Json)}
    (hagrees : context.Agrees G target)
    (h : ∀ field ∈ fields, TypesSoundly G target field.2 ∧
      ∀ segment, (context.descend segment).Unbranded field.2) :
    Run.Ensures G (fieldTypings context hinting (ofFields fields))
      (List.Forall₂ (NamedSoundly G target) fields) := by
  induction fields with
  | nil =>
    rw [ofFields, fieldTypings]
    exact Run.ensures_pure .nil
  | cons field fields ih =>
    obtain ⟨name, schema⟩ := field
    obtain ⟨hsound, hunbranded⟩ := h (name, schema) List.mem_cons_self
    -- A hint changes the suggested name of the context and nothing that soundness depends on.
    have hinner : Run.Ensures G ((ofJson schema).typing
        (if hinting then (context.descend name).named name else context.descend name) none)
        (Sound G target none schema) := by
      cases hinting with
      | false =>
        rw [if_neg Bool.false_ne_true]
        exact hsound _ none (hagrees.descend name) (hunbranded name)
      | true =>
        rw [if_pos rfl]
        exact hsound _ none ((hagrees.descend name).named name) ((hunbranded name).named name)
    rw [ofFields, fieldTypings]
    refine Run.ensures_bind hinner fun first => ?_
    refine Run.ensures_bind (ih fun field hfield => h field (List.mem_cons_of_mem _ hfield))
      fun others => ?_
    exact Run.ensures_pure fun hothers hfirst => .cons ⟨rfl, hfirst⟩ hothers

/-! ### Objects -/

/-- A property is there and has its type, or it is optional. -/
def PropertyHolds (G : List String → Json → Prop) (members : List (String × Json))
    (property : Property TypeExpr) : Prop :=
  match members.lookup property.name with
  | some value => TypeExpr.Admits G property.type value
  | none => property.optional = true

/-- A property of any type holds where its name is there. -/
theorem propertyHolds_unknown {members : List (String × Json)} {name : String}
    (h : (members.lookup name).isSome = true) :
    PropertyHolds G members { name, type := .unknown } := by
  obtain ⟨value, hvalue⟩ := Option.isSome_iff_exists.1 h
  simp [PropertyHolds, hvalue, TypeExpr.Admits]

/-- Adding the required properties keeps that all properties hold. -/
theorem propertyHolds_of_mem_required {patterns : List NamedTyping} {members : List (String × Json)}
    {required : List String} (hrequired : ∀ name ∈ required, (members.lookup name).isSome = true)
    {properties : List (Property TypeExpr)}
    (h : ∀ property ∈ properties, PropertyHolds G members property) :
    ∀ property ∈ required.foldl (requireProperty patterns) properties,
      PropertyHolds G members property := by
  induction required generalizing properties with
  | nil => exact h
  | cons name required ih =>
    refine ih (fun name hname => hrequired name (List.mem_cons_of_mem _ hname)) ?_
    unfold requireProperty
    split
    · exact h
    · intro property hproperty
      rcases List.mem_append.1 hproperty with hproperty | hproperty
      · exact h property hproperty
      · rw [List.mem_singleton.1 hproperty]
        exact propertyHolds_unknown (hrequired name List.mem_cons_self)

/-- The properties that a schema lists hold of the objects it describes. -/
theorem propertyHolds_of_mem_listed {schema : Json} {members : List (String × Json)}
    {fields : List (String × Json)} {properties : List NamedTyping}
    (hsound : List.Forall₂ (NamedSoundly G target) fields properties)
    (hrequired : ∀ name ∈ requiredNames schema, (members.lookup name).isSome = true)
    (hvalid : ∀ name inner, (name, inner) ∈ fields → ∀ member, members.lookup name = some member →
      Valid true target inner member) :
    ∀ property ∈ listedProperties (Facts.ofJson schema) properties,
      PropertyHolds G members property := by
  intro property hproperty
  obtain ⟨named, hnamed, rfl⟩ := List.mem_map.1 hproperty
  obtain ⟨⟨name, inner⟩, hfield, hname, htyping⟩ := exists_mem_left hsound hnamed
  simp only at hname htyping
  unfold PropertyHolds
  simp only [hname]
  split
  · next member hmember =>
    rw [Typing.admits_unionType_iff]
    exact htyping member (by simp) (hvalid name inner hfield member hmember)
  · next hnone =>
    -- A name that is not there is not required.
    have hnot : name ∉ requiredNames schema := fun hmem => by
      have := hrequired name hmem
      rw [hnone] at this
      exact Bool.noConfusion this
    simpa [Facts.ofJson] using hnot

/-- Without patterns, an index signature is open to every member. -/
theorem admitsIndex_additional {facts : Facts} {members : List (String × Json)} :
    TypeExpr.AdmitsIndex G (indexSignature (indexSources facts [])) members := by
  unfold indexSignature indexSources
  cases facts.additional with
  | none => simp [TypeExpr.AdmitsIndex]
  | some additional =>
    by_cases hfalse : additional.isFalse = true
    · simp [hfalse, TypeExpr.AdmitsIndex]
    · simp only [hfalse, List.map_nil, List.nil_append, List.isEmpty_cons, if_false,
        Bool.false_eq_true, TypeExpr.admitsIndex_some_iff, TypeExpr.admits_unionOf_iff]
      intro name value _
      exact ⟨.unknown, by simp, by simp [TypeExpr.Admits]⟩

/-- The object type of a schema holds the objects that the schema describes. -/
theorem ensures_objectTypingOf {context : Context} {fields : List (String × Json)}
    (hgrounds : Grounds G target context fields) :
    Run.Ensures G (objectTypingOf context (.object fields)) fun typing =>
      ∀ value, value.kind = .object → Valid true target (.object fields) value →
        typing.Covers G value := by
  have hnamed (hinting : Bool) (keyword : String) :
      Run.Ensures G (namedTypings context hinting (.object fields) keyword)
        (List.Forall₂ (NamedSoundly G target)
          (((Json.object fields).entries? keyword).getD [])) := by
    refine ensures_fieldTypings (hgrounds.agrees.descend keyword) fun field hfield => ?_
    have hinside : field.2.Inside (.object fields) := by
      cases hentries : (Json.object fields).entries? keyword with
      | none => simp [hentries] at hfield
      | some entries =>
        rw [hentries] at hfield
        exact Json.inside_of_mem_entries? hentries hfield
    exact ⟨hgrounds.inner _ hinside,
      fun segment => (hgrounds.unbranded.descend hinside keyword).descend' segment⟩
  unfold objectTypingOf objectTyping
  refine Run.ensures_bind (hnamed true "properties") fun properties => ?_
  refine Run.ensures_bind (hnamed false "patternProperties") fun patterns => ?_
  refine Run.ensures_pure fun hpatterns hproperties value hkind hvalid => ?_
  obtain ⟨members, rfl⟩ : ∃ members, value = .object members := by
    cases value <;> simp_all [Json.kind]
  cases hvalid with
  | malformed _ hobject => exact absurd rfl hobject
  | keywords _ _ _ _ _ _ hrequired hprops _ _ _ _ _ _ _ _ hnone _ =>
    -- A schema for which values are valid at all has no pattern, so the index is that of additional
    -- properties.
    have hempty : patterns = [] := by
      cases hentries : (Json.object fields).entries? "patternProperties" with
      | none => simpa [hentries] using hpatterns
      | some entries =>
        cases entries with
        | nil => simpa [hentries] using hpatterns
        | cons head rest => exact absurd rfl (hnone head.1 head.2 rest hentries)
    subst hempty
    refine Typing.covers_of_types_eq rfl ?_
    rw [TypeExpr.Admits]
    refine ⟨members, rfl, TypeExpr.admitsProperties_iff.2 ?_, admitsIndex_additional⟩
    refine propertyHolds_of_mem_required (fun name hname => hrequired name hname members rfl) ?_
    refine propertyHolds_of_mem_listed hproperties
      (fun name hname => hrequired name hname members rfl) ?_
    intro name inner hmem member hmember
    cases hentries : (Json.object fields).entries? "properties" with
    | none => simp [hentries] at hmem
    | some entries =>
      rw [hentries] at hmem
      exact hprops entries hentries members rfl name inner hmem member hmember

/-! ### Arrays -/

/-- Bounds on the length of an array, counted in least positive doubles. -/
theorem admits_uniformType {limit : Nat} {minItems maxItems : Option Double} {element : TypeExpr}
    {items : List Json}
    (hmin : ∀ least ∈ minItems, least.units ≤ items.length * Double.unitsPerOne)
    (hmax : ∀ most ∈ maxItems, items.length * Double.unitsPerOne ≤ most.units)
    (helement : ∀ item ∈ items, TypeExpr.Admits G element item) :
    TypeExpr.Admits G (uniformType limit minItems maxItems element) (.array items) := by
  have harray : TypeExpr.Admits G (.array element) (.array items) := by
    rw [TypeExpr.Admits]
    exact ⟨items, rfl, helement⟩
  unfold uniformType
  cases minItems with
  | none => exact harray
  | some least =>
    have hleast := hmin least rfl
    simp only
    split
    · next hexact =>
      -- The bounds are equal, so the length is just the number they give.
      rw [Bool.and_eq_true] at hexact
      obtain ⟨most, hmost, hsame⟩ := (Option.any_eq_true _ _).1 hexact.1
      have hunits : least.units = items.length * Double.unitsPerOne := by
        have := hmax most hmost
        rw [Double.sameValue_iff.1 hsame] at hleast ⊢
        exact le_antisymm hleast this
      have hlength : least.truncate = items.length := by
        unfold Double.truncate
        rw [hunits, ← Int.natCast_mul, Int.toNat_natCast]
        exact Nat.mul_div_cancel _ Double.unitsPerOne_pos
      rw [TypeExpr.Admits, hlength]
      exact ⟨items, [], by rw [List.append_nil], TypeExpr.admitsEach_replicate_iff.2 ⟨rfl, helement⟩,
        rfl⟩
    · split
      · have hlength : least.truncate ≤ items.length := by
          unfold Double.truncate
          refine Nat.div_le_of_le_mul ?_
          rw [Nat.mul_comm]
          exact Int.toNat_le.2 (by exact_mod_cast hleast)
        rw [TypeExpr.Admits]
        refine ⟨items.take least.truncate, items.drop least.truncate, by rw [List.take_append_drop],
          TypeExpr.admitsEach_replicate_iff.2 ⟨?_, fun item hitem => ?_⟩, fun item hitem => ?_⟩
        · rw [List.length_take]
          exact min_eq_left hlength
        · exact helement item (List.mem_of_mem_take hitem)
        · exact helement item (List.mem_of_mem_drop hitem)
      · exact harray

section Inner

variable {context : Context} {fields : List (String × Json)} {keyword : String}

/-- The typings under a keyword that holds an array are sound. -/
theorem ensures_keywordTypings (hgrounds : Grounds G target context fields) {parent : Option Json}
    {run : Run (List Typing)}
    (h : keywordTypings context parent (.object fields) keyword = some run) :
    ∃ items, (Json.object fields).items? keyword = some items ∧
      Run.Ensures G run (List.Forall₂ (Sound G target parent) items) := by
  obtain ⟨items, hitems, rfl⟩ := Option.map_eq_some_iff.1 h
  refine ⟨items, hitems, ensures_itemTypings (hgrounds.agrees.descend keyword) (fun item hitem => ?_) 0⟩
  have hinside := Json.inside_of_mem_items? hitems hitem
  exact ⟨hgrounds.inner item hinside,
    fun segment => (hgrounds.unbranded.descend hinside keyword).descend' segment⟩

/-- The typing under a keyword that holds one schema is sound. -/
theorem ensures_keywordTyping (hgrounds : Grounds G target context fields) {item : ItemTyping}
    (h : keywordTyping context (.object fields) keyword = some item) :
    ∃ inner, unlisted? (.object fields) keyword = some inner ∧
      Run.Ensures G item.typing (Sound G target none inner) := by
  obtain ⟨inner, hunlisted, rfl⟩ := Option.map_eq_some_iff.1 h
  have hinside := Json.inside_of_field? (field?_of_unlisted? hunlisted)
  exact ⟨inner, hunlisted, hgrounds.inner inner hinside _ none (hgrounds.agrees.descend keyword)
    (hgrounds.unbranded.descend hinside keyword)⟩

theorem ensures_tupleTyping {elements : Run (List Typing)} {rest : Option (Run Typing)}
    {P : List Typing → Prop} {Q : Typing → Prop} (helements : Run.Ensures G elements P)
    (hrest : ∀ run ∈ rest, Run.Ensures G run Q) :
    Run.Ensures G (tupleTyping elements rest) fun _ => True := by
  unfold tupleTyping
  refine Run.ensures_bind helements fun elements => ?_
  cases rest with
  | none => exact Run.ensures_pure fun _ => trivial
  | some run =>
    refine Run.ensures_bind (hrest run rfl) fun rest => ?_
    exact Run.ensures_pure fun _ _ => trivial

theorem ensures_restOf (hgrounds : Grounds G target context fields) {item : Option ItemTyping}
    (hitem : ∀ typing ∈ item, ∃ keyword, keywordTyping context (.object fields) keyword = some typing) :
    ∀ run ∈ restOf item, Run.Ensures G run fun _ => True := by
  intro run hrun
  obtain ⟨typing, htyping, rfl⟩ := Option.map_eq_some_iff.1 hrun
  obtain ⟨keyword, hkeyword⟩ := hitem typing (Option.filter_eq_some_iff.1 htyping).1
  obtain ⟨inner, -, hensures⟩ := ensures_keywordTyping hgrounds hkeyword
  exact hensures.mono fun _ _ => trivial

/-- Arrays whose items all have one schema, or any. -/
theorem ensures_uniformTyping (hgrounds : Grounds G target context fields) :
    Run.Ensures G
      (uniformTyping context (Facts.ofJson (.object fields))
        ((keywordTyping context (.object fields) "items").map (·.typing)))
      fun typing => ∀ value, value.kind = .array → Valid true target (.object fields) value →
        typing.Covers G value := by
  -- Without a schema for items any item will do, as it is typed by `unknown`.
  have hitem : Run.Ensures G
      (((keywordTyping context (.object fields) "items").map (·.typing)).getD
        (pure (Typing.ofType .unknown)))
      fun typing => ∀ item, (∀ inner, unlisted? (.object fields) "items" = some inner →
        Valid true target inner item) → typing.Covers G item := by
    cases hkeyword : keywordTyping context (.object fields) "items" with
    | none => exact Run.ensures_pure fun item _ => Typing.covers_of_types_eq rfl trivial
    | some typing =>
      obtain ⟨inner, hunlisted, hensures⟩ :=
        ensures_keywordTyping hgrounds hkeyword
      exact hensures.mono fun typing hsound item hvalid =>
        hsound item (by simp) (hvalid inner hunlisted)
  unfold uniformTyping
  refine Run.ensures_bind hitem fun typing => ?_
  refine Run.ensures_pure fun hcovers value hkind hvalid => ?_
  obtain ⟨items, rfl⟩ : ∃ items, value = .array items := by
    cases value <;> simp_all [Json.kind]
  cases hvalid with
  | malformed _ hobject => exact absurd rfl hobject
  | keywords _ _ _ _ _ _ _ _ _ hitems hmin hmax _ _ _ _ _ _ =>
    refine Typing.covers_of_types_eq rfl (admits_uniformType ?_ ?_ fun item hmem => ?_)
    · exact fun least hleast => hmin least hleast items rfl
    · exact fun most hmost => hmax most hmost items rfl
    · rw [Typing.admits_unionType_iff]
      exact hcovers item fun inner hunlisted => hitems inner hunlisted items rfl item hmem

/-- The array type of a schema holds the arrays that the schema describes. -/
theorem ensures_arrayTypingOf (hgrounds : Grounds G target context fields) :
    Run.Ensures G (arrayTypingOf context (.object fields)) fun typing =>
      ∀ value, value.kind = .array → Valid true target (.object fields) value →
        typing.Covers G value := by
  -- Items by position are not among the keywords that are read.
  have hpositions {value : Json} (hkind : value.kind = .array)
      (hvalid : Valid true target (.object fields) value) :
      ¬ (((Json.object fields).items? "prefixItems").isSome = true ∨
        ((Json.object fields).items? "items").isSome = true) := by
    cases hvalid with
    | malformed _ hobject => exact absurd rfl hobject
    | keywords _ _ _ _ _ _ _ _ _ _ _ _ _ _ _ _ _ hpositions => exact fun h => hpositions h hkind
  unfold arrayTypingOf arrayTyping
  split
  · next hempty =>
    -- No array but the empty one is short enough.
    refine Run.ensures_pure fun value hkind hvalid => ?_
    obtain ⟨items, rfl⟩ : ∃ items, value = .array items := by
      cases value <;> simp_all [Json.kind]
    cases hvalid with
    | malformed _ hobject => exact absurd rfl hobject
    | keywords _ _ _ _ _ _ _ _ _ _ _ hmax _ _ _ _ _ _ =>
      obtain ⟨most, hmost, hle⟩ := (Option.any_eq_true _ _).1 hempty
      have hunits : (items.length * Double.unitsPerOne : Int) ≤ 0 :=
        (hmax most hmost items rfl).trans (Double.le_iff.1 hle)
      have hlength : items = [] := by
        by_contra hne
        have := Nat.mul_pos (List.length_pos_iff.2 hne) Double.unitsPerOne_pos
        rw [← Int.natCast_mul] at hunits
        omega
      refine Typing.covers_of_types_eq rfl ?_
      rw [TypeExpr.Admits]
      exact ⟨items, rfl, by simp [hlength]⟩
  · split
    · next elements hleading =>
      obtain ⟨items, hitems, helements⟩ :=
        ensures_keywordTypings hgrounds hleading
      refine (ensures_tupleTyping helements (ensures_restOf hgrounds ?_)).mono ?_
      · intro typing htyping
        rcases Option.or_eq_some_iff.1 htyping with htyping | ⟨-, htyping⟩
        · exact ⟨_, htyping⟩
        · exact ⟨_, htyping⟩
      · intro _ _ value hkind hvalid
        exact absurd (.inl (by rw [hitems]; rfl)) (hpositions hkind hvalid)
    · next elements _ hlist =>
      obtain ⟨items, hitems, helements⟩ := ensures_keywordTypings hgrounds hlist
      refine (ensures_tupleTyping helements (ensures_restOf hgrounds ?_)).mono ?_
      · exact fun typing htyping => ⟨_, htyping⟩
      · intro _ _ value hkind hvalid
        exact absurd (.inr (by rw [hitems]; rfl)) (hpositions hkind hvalid)
    · exact ensures_uniformTyping hgrounds

end Inner

end Schema

end Typewright
