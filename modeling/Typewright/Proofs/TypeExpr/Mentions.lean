import Typewright.Fragment.Basic
import Typewright.Proofs.Text.Distinct
import Typewright.Schema.Typing

/-!
# The names that a type mentions

`TypeExpr.mentions` lists the paths of declared types inside a type.  Building unions, intersections
and arrays brings in no path that was not there.
-/

namespace Typewright

namespace TypeExpr

mutual

/-- The paths of the declared types that a type mentions. -/
def mentions : TypeExpr → List (List String)
  | reference path => [path]
  | nonNullable type => mentions type
  | union members => mentionsOfAll members
  | intersection members => mentionsOfAll members
  | array element => mentions element
  | tuple elements rest => mentionsOfAll elements ++ mentionsOfRest rest
  | object properties index => mentionsOfProperties properties ++ mentionsOfIndex index
  | _ => []

/-- The paths that the types of a list mention. -/
def mentionsOfAll : List TypeExpr → List (List String)
  | [] => []
  | type :: rest => mentions type ++ mentionsOfAll rest

/-- The paths that a rest type mentions. -/
def mentionsOfRest : Option TypeExpr → List (List String)
  | none => []
  | some type => mentions type

/-- The paths that properties mention. -/
def mentionsOfProperties : List (Property TypeExpr) → List (List String)
  | [] => []
  | ⟨_, type, _, _⟩ :: rest => mentions type ++ mentionsOfProperties rest

/-- The paths that an index signature mentions. -/
def mentionsOfIndex : Option (IndexSignature TypeExpr) → List (List String)
  | none => []
  | some ⟨type, _, _⟩ => mentions type

end

variable {path : List String} {types : List TypeExpr}

theorem mem_mentionsOfAll_iff : path ∈ mentionsOfAll types ↔ ∃ type ∈ types, path ∈ type.mentions := by
  induction types with
  | nil => simp [mentionsOfAll]
  | cons type rest ih => simp [mentionsOfAll, ih]

theorem mem_mentionsOfProperties_iff {properties : List (Property TypeExpr)} :
    path ∈ mentionsOfProperties properties ↔ ∃ property ∈ properties, path ∈ property.type.mentions := by
  induction properties with
  | nil => simp [mentionsOfProperties]
  | cons property rest ih =>
    obtain ⟨name, type, optional, readonly⟩ := property
    simp [mentionsOfProperties, ih]

theorem mentionsOfIndex_some (index : IndexSignature TypeExpr) :
    mentionsOfIndex (some index) = index.type.mentions := rfl

/-! ### Equal types -/

mutual

/-- Equal types mention the same paths. -/
theorem mentions_congr (a b : TypeExpr) (h : a.same b = true) : a.mentions = b.mentions := by
  cases a <;> cases b <;> simp only [same, Bool.false_eq_true, Bool.and_eq_true, beq_iff_eq] at h
  case reference.reference => rw [h]
  case nonNullable.nonNullable a b => rw [mentions, mentions, mentions_congr a b h]
  case union.union as bs => rw [mentions, mentions, mentionsOfAll_congr as bs h]
  case intersection.intersection as bs => rw [mentions, mentions, mentionsOfAll_congr as bs h]
  case array.array a b => rw [mentions, mentions, mentions_congr a b h]
  case tuple.tuple as rest bs rest' =>
    rw [mentions, mentions, mentionsOfAll_congr as bs h.1, mentionsOfRest_congr rest rest' h.2]
  case object.object ps index qs index' =>
    rw [mentions, mentions, mentionsOfProperties_congr ps qs h.1, mentionsOfIndex_congr index index' h.2]
  all_goals rfl
termination_by structural a

theorem mentionsOfAll_congr (as bs : List TypeExpr) (h : sameAll as bs = true) :
    mentionsOfAll as = mentionsOfAll bs := by
  cases as <;> cases bs <;> simp only [sameAll, Bool.false_eq_true, Bool.and_eq_true] at h
  case nil.nil => rfl
  case cons.cons a as b bs =>
    rw [mentionsOfAll, mentionsOfAll, mentions_congr a b h.1, mentionsOfAll_congr as bs h.2]
termination_by structural as

theorem mentionsOfRest_congr (a b : Option TypeExpr) (h : sameRest a b = true) :
    mentionsOfRest a = mentionsOfRest b := by
  cases a <;> cases b <;> simp only [sameRest, Bool.false_eq_true] at h
  case none.none => rfl
  case some.some a b => rw [mentionsOfRest, mentionsOfRest, mentions_congr a b h]
termination_by structural a

theorem mentionsOfProperties_congr (ps qs : List (Property TypeExpr))
    (h : sameProperties ps qs = true) : mentionsOfProperties ps = mentionsOfProperties qs := by
  cases ps with
  | nil =>
    cases qs with
    | nil => rfl
    | cons q qs => simp [sameProperties] at h
  | cons p ps =>
    obtain ⟨name, a, optional, readonly⟩ := p
    cases qs with
    | nil => simp [sameProperties] at h
    | cons q qs =>
      obtain ⟨name', b, optional', readonly'⟩ := q
      simp only [sameProperties, Bool.and_eq_true] at h
      rw [mentionsOfProperties, mentionsOfProperties, mentions_congr a b h.1.1.1.2,
        mentionsOfProperties_congr ps qs h.2]
termination_by structural ps

theorem mentionsOfIndex_congr (i j : Option (IndexSignature TypeExpr)) (h : sameIndex i j = true) :
    mentionsOfIndex i = mentionsOfIndex j := by
  cases i with
  | none =>
    cases j with
    | none => rfl
    | some j => simp [sameIndex] at h
  | some i =>
    obtain ⟨a, optional, readonly⟩ := i
    cases j with
    | none => simp [sameIndex] at h
    | some j =>
      obtain ⟨b, optional', readonly'⟩ := j
      simp only [sameIndex, Bool.and_eq_true] at h
      rw [mentionsOfIndex, mentionsOfIndex, mentions_congr a b h.1.1]
termination_by structural i

end

/-! ### Unions and intersections -/

theorem mem_mentions_unionMembers_iff {type : TypeExpr} :
    path ∈ mentionsOfAll type.unionMembers ↔ path ∈ type.mentions := by
  cases type with
  | union members => rw [unionMembers, mentions]
  | _ => simp [unionMembers, mentionsOfAll]

theorem mem_mentions_intersectionMembers_iff {type : TypeExpr} :
    path ∈ mentionsOfAll type.intersectionMembers ↔ path ∈ type.mentions := by
  cases type with
  | intersection members => rw [intersectionMembers, mentions]
  | _ => simp [intersectionMembers, mentionsOfAll]

theorem mem_mentions_flatMap_iff {parts : TypeExpr → List TypeExpr}
    (h : ∀ type, path ∈ mentionsOfAll (parts type) ↔ path ∈ type.mentions) :
    path ∈ mentionsOfAll (types.flatMap parts) ↔ ∃ type ∈ types, path ∈ type.mentions := by
  rw [mem_mentionsOfAll_iff]
  constructor
  · rintro ⟨part, hpart, hpath⟩
    obtain ⟨type, htype, hpart⟩ := List.mem_flatMap.1 hpart
    exact ⟨type, htype, (h type).1 (mem_mentionsOfAll_iff.2 ⟨part, hpart, hpath⟩)⟩
  · rintro ⟨type, htype, hpath⟩
    obtain ⟨part, hpart, hpath⟩ := mem_mentionsOfAll_iff.1 ((h type).2 hpath)
    exact ⟨part, List.mem_flatMap.2 ⟨type, htype, hpart⟩, hpath⟩

/-- Dropping a type that repeats an earlier one loses no path. -/
theorem mem_mentions_distinct_iff :
    path ∈ mentionsOfAll (Text.distinct types) ↔ path ∈ mentionsOfAll types := by
  rw [mem_mentionsOfAll_iff, mem_mentionsOfAll_iff]
  exact Text.exists_mem_distinct_iff fun type other hsame => by rw [mentions_congr type other hsame]

/-- A union mentions what its members mention. -/
theorem mem_mentions_unionOf_iff :
    path ∈ (unionOf types).mentions ↔ ∃ type ∈ types, path ∈ type.mentions := by
  rw [← mem_mentions_flatMap_iff fun _ => mem_mentions_unionMembers_iff, ← mem_mentions_distinct_iff]
  unfold unionOf
  split
  · next h => simp [h, mentions, mentionsOfAll]
  · next member h => simp [h, mentionsOfAll]
  · rw [mentions]

/-- An intersection mentions what its members mention. -/
theorem mem_mentions_intersectionOf_iff :
    path ∈ (intersectionOf types).mentions ↔ ∃ type ∈ types, path ∈ type.mentions := by
  rw [← mem_mentions_flatMap_iff fun _ => mem_mentions_intersectionMembers_iff]
  unfold intersectionOf
  split
  · next h => simp [h, mentions, mentionsOfAll]
  · next member h => simp [h, mentionsOfAll]
  · rw [mentions]

/-! ### Arrays and constants -/

theorem mem_mentions_repeated_iff {count : Nat} {element : TypeExpr} :
    path ∈ mentionsOfAll (List.replicate count element) ↔ count ≠ 0 ∧ path ∈ element.mentions := by
  rw [mem_mentionsOfAll_iff]
  constructor
  · rintro ⟨type, htype, hpath⟩
    obtain ⟨hcount, rfl⟩ := List.mem_replicate.1 htype
    exact ⟨hcount, hpath⟩
  · rintro ⟨hcount, hpath⟩
    exact ⟨element, List.mem_replicate.2 ⟨hcount, rfl⟩, hpath⟩

mutual

/-- A constant mentions no declared type. -/
theorem mentions_ofConst (constant : Json) : (ofConst constant).mentions = [] := by
  cases constant with
  | array items => rw [ofConst, mentions, mentionsOfAll_ofConsts items]; rfl
  | object fields => rw [ofConst, mentions, mentionsOfProperties_ofConstFields fields]; rfl
  | _ => rfl
termination_by structural constant

theorem mentionsOfAll_ofConsts (items : List Json) : mentionsOfAll (ofConsts items) = [] := by
  cases items with
  | nil => rfl
  | cons item items =>
    rw [ofConsts, mentionsOfAll, mentions_ofConst item, mentionsOfAll_ofConsts items]
    rfl
termination_by structural items

theorem mentionsOfProperties_ofConstFields (fields : List (String × Json)) :
    mentionsOfProperties (ofConstFields fields) = [] := by
  cases fields with
  | nil => rfl
  | cons field fields =>
    obtain ⟨name, value⟩ := field
    rw [ofConstFields, mentionsOfProperties, mentions_ofConst value,
      mentionsOfProperties_ofConstFields fields]
    rfl
termination_by structural fields

end

end TypeExpr

/-- The paths that a redirect or a type of a declaration mentions. -/
def DeclarationBody.mentions : DeclarationBody → List (List String)
  | .type declared => declared.mentions
  | .redirect other => [other.target]
  | _ => []

/-- The paths that the type of a member mentions. -/
def MemberBody.mentions : MemberBody → List (List String)
  | .type declared => declared.mentions
  | .redirect other => [other.target]
  | .gathered => []

namespace Fragment

/-- The paths of declared types that a fragment mentions. -/
def mentions : Fragment → List (List String)
  | statement _ _ type => type.mentions
  | declaration _ _ body => body.mentions
  | member _ _ _ body => body.mentions
  | assumed _ => []

/-- The path under which a fragment declares something; a statement declares its name. -/
def declaredPath? : Fragment → Option (List String)
  | statement _ name _ => some [name]
  | declaration _ path _ => some path
  | _ => none

end Fragment

end Typewright
