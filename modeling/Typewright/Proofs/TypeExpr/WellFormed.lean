import Typewright.TypeExpr.Printer

/-!
# Well-formed types and what their text shows

`TypeExpr.WellFormed` says that unions and intersections are flat and have several members, and that
every path is made of identifiers.  `TypeExpr.shown` is a type up to the one mark that its text does
not show: whether the members of an index signature may be missing, where they may have any type.
-/

namespace Typewright.TypeExpr

/-- Whether the type is a union. -/
def isUnion : TypeExpr → Bool
  | union _ => true
  | _ => false

/-- Whether the type is an intersection. -/
def isIntersection : TypeExpr → Bool
  | intersection _ => true
  | _ => false

/-- The path is not empty, and its segments are identifiers. -/
def WellNamed (path : List String) : Prop :=
  path ≠ [] ∧ ∀ segment ∈ path, ∃ text, Naming.identifier text = segment

mutual

/-- Everywhere inside, a union has at least two members and none of them is a union, an intersection
    has at least two members and none of them is an intersection, and a reference is well named. -/
def WellFormed : TypeExpr → Prop
  | reference path => WellNamed path
  | nonNullable type => WellFormed type
  | union members => 2 ≤ members.length ∧ (∀ member ∈ members, member.isUnion = false) ∧
      AllWellFormed members
  | intersection members => 2 ≤ members.length ∧ (∀ member ∈ members, member.isIntersection = false) ∧
      AllWellFormed members
  | array element => WellFormed element
  | tuple elements rest => AllWellFormed elements ∧ RestWellFormed rest
  | object properties index => PropertiesWellFormed properties ∧ IndexWellFormed index
  | _ => True

/-- All types of a list are well-formed. -/
def AllWellFormed : List TypeExpr → Prop
  | [] => True
  | type :: rest => WellFormed type ∧ AllWellFormed rest

/-- A rest type is well-formed. -/
def RestWellFormed : Option TypeExpr → Prop
  | none => True
  | some type => WellFormed type

/-- The types of properties are well-formed. -/
def PropertiesWellFormed : List (Property TypeExpr) → Prop
  | [] => True
  | ⟨_, type, _, _⟩ :: rest => WellFormed type ∧ PropertiesWellFormed rest

/-- The type of an index signature is well-formed. -/
def IndexWellFormed : Option (IndexSignature TypeExpr) → Prop
  | none => True
  | some ⟨type, _, _⟩ => WellFormed type

end

/-- Whether the text of an index signature says that its members may be missing. -/
def showsOptional (optional : Bool) : TypeExpr → Bool
  | unknown => false
  | _ => optional

mutual

/-- The type without the marks that its text does not show. -/
def shown : TypeExpr → TypeExpr
  | nonNullable type => nonNullable (shown type)
  | union members => union (allShown members)
  | intersection members => intersection (allShown members)
  | array element => array (shown element)
  | tuple elements rest => tuple (allShown elements) (restShown rest)
  | object properties index => object (propertiesShown properties) (indexShown index)
  | type => type

/-- The types of a list without the marks that are not shown. -/
def allShown : List TypeExpr → List TypeExpr
  | [] => []
  | type :: rest => shown type :: allShown rest

/-- A rest type without the marks that are not shown. -/
def restShown : Option TypeExpr → Option TypeExpr
  | none => none
  | some type => some (shown type)

/-- Properties without the marks that are not shown. -/
def propertiesShown : List (Property TypeExpr) → List (Property TypeExpr)
  | [] => []
  | ⟨name, type, optional, readonly⟩ :: rest =>
    ⟨name, shown type, optional, readonly⟩ :: propertiesShown rest

/-- An index signature without the marks that are not shown. -/
def indexShown : Option (IndexSignature TypeExpr) → Option (IndexSignature TypeExpr)
  | none => none
  | some ⟨type, optional, readonly⟩ => some ⟨shown type, type.showsOptional optional, readonly⟩

end

/-! ### Texts, constructor by constructor

The printer is a mutual recursion that no later proof unfolds; these equations stand for it. -/

/-- A reference is written with points between its segments. -/
theorem toChars_reference (path : List String) :
    (reference path).toChars = ['.'].intercalate (path.map String.toList) := rfl

theorem toChars_nonNullable (type : TypeExpr) :
    (nonNullable type).toChars = "NonNullable<".toList ++ type.toChars ++ ['>'] := rfl

theorem toChars_array (element : TypeExpr) :
    (array element).toChars = arrayOf element element.toChars := rfl

theorem toChars_object (properties : List (Property TypeExpr))
    (index : Option (IndexSignature TypeExpr)) :
    (object properties index).toChars = braced (propertyChars properties ++ indexChars index) := rfl

theorem toChars_tuple (elements : List TypeExpr) (rest : Option TypeExpr) :
    (tuple elements rest).toChars =
      '[' :: ([',', ' '].intercalate (unionChars elements ++ restChars rest) ++ [']']) := rfl

/-- A rest is written as an array after three dots. -/
theorem restChars_some (type : TypeExpr) :
    restChars (some type) = [['.', '.', '.'] ++ arrayOf type type.toChars] := rfl

/-- The text of a property is taken from its parts. -/
theorem propertyChars_cons (property : Property TypeExpr) (rest : List (Property TypeExpr)) :
    propertyChars (property :: rest) =
      afterReadonly property.readonly (Naming.propertyKeyChars property.name.toList
        ++ (if property.optional then ['?'] else []) ++ [':', ' '] ++ property.type.toChars)
        :: propertyChars rest := rfl

/-- The text of an index signature says that members may be missing only through `indexType`. -/
theorem indexChars_some (index : IndexSignature TypeExpr) :
    indexChars (some index) = [afterReadonly index.readonly
      ("[key: string]: ".toList ++ indexType index.optional index.type index.type.toChars)] := rfl

/-- The members of a union, and the elements of a tuple, are written by themselves. -/
theorem unionChars_eq_map (types : List TypeExpr) : unionChars types = types.map toChars := by
  induction types with
  | nil => rfl
  | cons type rest ih =>
    change type.toChars :: unionChars rest = _
    rw [ih, List.map_cons]

/-- A union is the texts of its members with bars between them. -/
theorem toChars_union (members : List TypeExpr) :
    (union members).toChars = [' ', '|', ' '].intercalate (members.map toChars) :=
  congrArg _ (unionChars_eq_map members)

/-- The members of an intersection stand in parentheses if they are unions. -/
theorem intersectionChars_eq_map (types : List TypeExpr) :
    intersectionChars types = types.map fun type => inIntersection type type.toChars := by
  induction types with
  | nil => rfl
  | cons type rest ih =>
    change inIntersection type type.toChars :: intersectionChars rest = _
    rw [ih, List.map_cons]

/-- An intersection is the texts of its members with ampersands between them. -/
theorem toChars_intersection (members : List TypeExpr) :
    (intersection members).toChars =
      [' ', '&', ' '].intercalate (members.map fun member => inIntersection member member.toChars) :=
  congrArg _ (intersectionChars_eq_map members)

/-! ### Lists -/

/-- The recursion over a list of types, as a statement about its members. -/
theorem allWellFormed_iff {types : List TypeExpr} :
    AllWellFormed types ↔ ∀ type ∈ types, type.WellFormed := by
  induction types with
  | nil => simp [AllWellFormed]
  | cons type rest ih => simp [AllWellFormed, ih]

/-- The recursion over properties, as a statement about their types. -/
theorem propertiesWellFormed_iff {properties : List (Property TypeExpr)} :
    PropertiesWellFormed properties ↔ ∀ property ∈ properties, property.type.WellFormed := by
  induction properties with
  | nil => simp [PropertiesWellFormed]
  | cons property rest ih =>
    obtain ⟨name, type, optional, readonly⟩ := property
    simp [PropertiesWellFormed, ih]

/-- The recursion over a list of types, as a map. -/
theorem allShown_eq_map (types : List TypeExpr) : allShown types = types.map shown := by
  induction types with
  | nil => rfl
  | cons type rest ih => rw [allShown, ih, List.map_cons]

/-- A property without the marks that are not shown. -/
def propertyShown (property : Property TypeExpr) : Property TypeExpr :=
  { property with type := property.type.shown }

/-- The recursion over properties, as a map. -/
theorem propertiesShown_eq_map (properties : List (Property TypeExpr)) :
    propertiesShown properties = properties.map propertyShown := by
  induction properties with
  | nil => rfl
  | cons property rest ih =>
    rw [propertiesShown, ih, List.map_cons]
    rfl

/-- An index signature without the marks that are not shown. -/
def signatureShown (index : IndexSignature TypeExpr) : IndexSignature TypeExpr :=
  { index with type := index.type.shown, optional := index.type.showsOptional index.optional }

theorem indexShown_eq_map (index : Option (IndexSignature TypeExpr)) :
    indexShown index = index.map signatureShown := by
  cases index <;> rfl

theorem restShown_eq_map (rest : Option TypeExpr) : restShown rest = rest.map shown := by
  cases rest <;> rfl

/-! ### Texts show no more -/

/-- A type without the marks is a union if it was one. -/
theorem inIntersection_shown (type : TypeExpr) (cs : List Char) :
    inIntersection type.shown cs = inIntersection type cs := by
  cases type <;> rfl

/-- A type without the marks takes the same parentheses in an array. -/
theorem arrayOf_shown (type : TypeExpr) (cs : List Char) :
    arrayOf type.shown cs = arrayOf type cs := by
  cases type <;> rfl

/-- The mark of an index signature is shown just where it adds `undefined`. -/
theorem indexType_shown (optional : Bool) (type : TypeExpr) (cs : List Char) :
    indexType (type.showsOptional optional) type.shown cs = indexType optional type cs := by
  -- Only `unknown` absorbs the mark, so each constructor is looked at.
  cases optional <;> cases type <;> rfl

mutual

/-- The marks that are left out change nothing in the text: one case for each constructor. -/
theorem toChars_shown (type : TypeExpr) : type.shown.toChars = type.toChars := by
  cases type with
  | nonNullable type => rw [shown, toChars_nonNullable, toChars_nonNullable, toChars_shown type]
  | union members => rw [shown, toChars_union, toChars_union, map_toChars_shown members]
  | intersection members =>
    rw [shown, toChars_intersection, toChars_intersection, map_inIntersection_shown members]
  | array element => rw [shown, toChars_array, toChars_array, arrayOf_shown, toChars_shown element]
  | tuple elements rest =>
    rw [shown, toChars_tuple, toChars_tuple, unionChars_eq_map, unionChars_eq_map,
      map_toChars_shown elements, restChars_shown rest]
  | object properties index =>
    rw [shown, toChars_object, toChars_object, propertyChars_shown properties, indexChars_shown index]
  | _ => rfl
termination_by structural type

/-- The texts of the members stay the same. -/
theorem map_toChars_shown (types : List TypeExpr) :
    (allShown types).map toChars = types.map toChars := by
  cases types with
  | nil => rfl
  | cons type rest =>
    rw [allShown, List.map_cons, List.map_cons, toChars_shown type, map_toChars_shown rest]
termination_by structural types

/-- The texts of the members stay the same, with their parentheses. -/
theorem map_inIntersection_shown (types : List TypeExpr) :
    ((allShown types).map fun type => inIntersection type type.toChars) =
      types.map fun type => inIntersection type type.toChars := by
  cases types with
  | nil => rfl
  | cons type rest =>
    rw [allShown, List.map_cons, List.map_cons, inIntersection_shown, toChars_shown type,
      map_inIntersection_shown rest]
termination_by structural types

/-- The text of a rest stays the same. -/
theorem restChars_shown (rest : Option TypeExpr) : restChars (restShown rest) = restChars rest := by
  cases rest with
  | none => rfl
  | some type => rw [restShown, restChars_some, restChars_some, arrayOf_shown, toChars_shown type]
termination_by structural rest

/-- The texts of properties stay the same. -/
theorem propertyChars_shown (properties : List (Property TypeExpr)) :
    propertyChars (propertiesShown properties) = propertyChars properties := by
  cases properties with
  | nil => rfl
  | cons property rest =>
    obtain ⟨name, type, optional, readonly⟩ := property
    rw [propertiesShown, propertyChars_cons, propertyChars_cons, toChars_shown type,
      propertyChars_shown rest]
termination_by structural properties

/-- The text of an index signature stays the same: the mark goes with what it adds. -/
theorem indexChars_shown (index : Option (IndexSignature TypeExpr)) :
    indexChars (indexShown index) = indexChars index := by
  cases index with
  | none => rfl
  | some index =>
    obtain ⟨type, optional, readonly⟩ := index
    -- Here the mark itself may change; that the text does not see it is `indexType_shown`.
    rw [indexShown, indexChars_some, indexChars_some, indexType_shown, toChars_shown type]
termination_by structural index

end

end Typewright.TypeExpr
