import Typewright.Json.Number
import Typewright.Text.Distinct

/-!
# Type expressions

The types that schemas denote.  `TypeExpr.unionOf` and `TypeExpr.intersectionOf` build unions and
intersections that hold no union, respectively intersection, as a direct member.
-/

namespace Typewright

/-- The single value of a literal type. -/
inductive Literal where
  | boolean (value : Bool)
  | number (value : Number)
  | string (value : String)
deriving DecidableEq, Repr

namespace Literal

/-- Equality of value. -/
def same : Literal → Literal → Bool
  | boolean a, boolean b => a == b
  | number a, number b => a.same b
  | string a, string b => a == b
  | _, _ => false

end Literal

/-- A named member of an object type. -/
structure Property (T : Type) where
  name : String
  type : T
  optional : Bool := false
  readonly : Bool := false
deriving Repr

/-- The type of all members of an object that no property names. -/
structure IndexSignature (T : Type) where
  type : T
  optional : Bool := false
  readonly : Bool := false
deriving Repr

/-- A type expression. -/
inductive TypeExpr where
  /-- The type of every value. -/
  | unknown
  /-- The type without a value. -/
  | never
  | null
  | boolean
  | number
  | string
  | literal (value : Literal)
  /-- The type declared under a path of namespaces. -/
  | reference (path : List String)
  /-- A type without the null value. -/
  | nonNullable (type : TypeExpr)
  | union (members : List TypeExpr)
  | intersection (members : List TypeExpr)
  | array (element : TypeExpr)
  /-- Elements by position, then any number of elements of the rest type. -/
  | tuple (elements : List TypeExpr) (rest : Option TypeExpr)
  | object (properties : List (Property TypeExpr)) (index : Option (IndexSignature TypeExpr))
deriving Repr, Inhabited

namespace TypeExpr

/-! ### Equality -/

mutual

/-- Equality of type expressions, literals compared by value. -/
def same : TypeExpr → TypeExpr → Bool
  | unknown, unknown => true
  | never, never => true
  | null, null => true
  | boolean, boolean => true
  | number, number => true
  | string, string => true
  | literal a, literal b => a.same b
  | reference p, reference q => p == q
  | nonNullable a, nonNullable b => same a b
  | union as, union bs => sameAll as bs
  | intersection as, intersection bs => sameAll as bs
  | array a, array b => same a b
  | tuple as r, tuple bs s => sameAll as bs && sameRest r s
  | object ps i, object qs j => sameProperties ps qs && sameIndex i j
  | _, _ => false

/-- Equality member by member. -/
def sameAll : List TypeExpr → List TypeExpr → Bool
  | [], [] => true
  | a :: as, b :: bs => same a b && sameAll as bs
  | _, _ => false

/-- Equality of rest types. -/
def sameRest : Option TypeExpr → Option TypeExpr → Bool
  | none, none => true
  | some a, some b => same a b
  | _, _ => false

/-- Equality property by property. -/
def sameProperties : List (Property TypeExpr) → List (Property TypeExpr) → Bool
  | [], [] => true
  | ⟨n, a, o, r⟩ :: ps, q :: qs =>
    n == q.name && same a q.type && o == q.optional && r == q.readonly && sameProperties ps qs
  | _, _ => false

/-- Equality of index signatures. -/
def sameIndex : Option (IndexSignature TypeExpr) → Option (IndexSignature TypeExpr) → Bool
  | none, none => true
  | some ⟨a, o, r⟩, some j => same a j.type && o == j.optional && r == j.readonly
  | _, _ => false

end

instance : BEq TypeExpr where
  beq := same

/-! ### Builders -/

/-- The literal type of a string. -/
def stringLiteral (s : String) : TypeExpr :=
  literal (.string s)

/-- The object type without members. -/
def emptyObject : TypeExpr :=
  object [] none

/-- The members of a union; any other type is its own only member. -/
def unionMembers : TypeExpr → List TypeExpr
  | union members => members
  | type => [type]

/-- The members of an intersection; any other type is its own only member. -/
def intersectionMembers : TypeExpr → List TypeExpr
  | intersection members => members
  | type => [type]

/-- The union of types: the members of unions among them count one by one, and a member that
    repeats an earlier one is dropped.  No member gives `never`, a single one stands alone. -/
def unionOf (types : List TypeExpr) : TypeExpr :=
  match Text.distinct (types.flatMap unionMembers) with
  | [] => never
  | [member] => member
  | members => union members

/-- The intersection of types: the members of intersections among them count one by one.  No
    member gives `unknown`, a single one stands alone. -/
def intersectionOf (types : List TypeExpr) : TypeExpr :=
  match types.flatMap intersectionMembers with
  | [] => unknown
  | [member] => member
  | members => intersection members

end TypeExpr

end Typewright
