import Typewright.Naming
import Typewright.TypeExpr.Basic

/-!
# The text of type expressions

Unions bind least, then intersections, then arrays: a union inside an intersection and both inside
an array stand in parentheses.
-/

namespace Typewright

/-- The characters of a literal. -/
def Literal.toChars : Literal → List Char
  | boolean true => ['t', 'r', 'u', 'e']
  | boolean false => ['f', 'a', 'l', 's', 'e']
  | number n => n.toChars
  | string s => Text.quoteChars s.toList

namespace TypeExpr

/-- A text in parentheses. -/
def parenthesized (cs : List Char) : List Char :=
  '(' :: (cs ++ [')'])

/-- A text put after the `readonly` of a member, if it has one. -/
def afterReadonly (readonly : Bool) (cs : List Char) : List Char :=
  if readonly then "readonly ".toList ++ cs else cs

/-- The members of an object type between braces. -/
def braced (members : List (List Char)) : List Char :=
  match members with
  | [] => ['{', '}']
  | members => ['{', ' '] ++ [';', ' '].intercalate members ++ [' ', '}']

/-- The type of an index signature: the members it stands for may be missing, which only
    `unknown` admits by itself. -/
def indexType (optional : Bool) (type : TypeExpr) (cs : List Char) : List Char :=
  match optional, type with
  | true, unknown => cs
  | true, _ => cs ++ " | undefined".toList
  | false, _ => cs

/-- The text `cs` of a type as a member of an intersection. -/
def inIntersection (type : TypeExpr) (cs : List Char) : List Char :=
  match type with
  | union _ => parenthesized cs
  | _ => cs

/-- The text of the array whose elements have the type with the text `cs`. -/
def arrayOf (type : TypeExpr) (cs : List Char) : List Char :=
  match type with
  | union _ => parenthesized cs ++ ['[', ']']
  | intersection _ => parenthesized cs ++ ['[', ']']
  | _ => cs ++ ['[', ']']

mutual

/-- The characters of a type expression. -/
def toChars : TypeExpr → List Char
  | unknown => "unknown".toList
  | never => "never".toList
  | null => "null".toList
  | boolean => "boolean".toList
  | number => "number".toList
  | string => "string".toList
  | literal value => value.toChars
  | reference path => ['.'].intercalate (path.map String.toList)
  | nonNullable type => "NonNullable<".toList ++ toChars type ++ ['>']
  | union members => [' ', '|', ' '].intercalate (unionChars members)
  | intersection members => [' ', '&', ' '].intercalate (intersectionChars members)
  | array element => arrayOf element (toChars element)
  | tuple elements rest =>
    '[' :: ([',', ' '].intercalate (unionChars elements ++ restChars rest) ++ [']'])
  | object properties index => braced (propertyChars properties ++ indexChars index)

/-- The texts of the members of a union, or of the elements of a tuple. -/
def unionChars : List TypeExpr → List (List Char)
  | [] => []
  | member :: rest => toChars member :: unionChars rest

/-- The texts of the members of an intersection. -/
def intersectionChars : List TypeExpr → List (List Char)
  | [] => []
  | member :: rest =>
    inIntersection member (toChars member) :: intersectionChars rest

/-- The rest of a tuple type. -/
def restChars : Option TypeExpr → List (List Char)
  | none => []
  | some type => [['.', '.', '.'] ++ arrayOf type (toChars type)]

/-- The texts of properties. -/
def propertyChars : List (Property TypeExpr) → List (List Char)
  | [] => []
  | ⟨name, type, optional, readonly⟩ :: rest =>
    afterReadonly readonly
      (Naming.propertyKeyChars name.toList ++ (if optional then ['?'] else []) ++ [':', ' ']
        ++ toChars type) :: propertyChars rest

/-- The text of an index signature. -/
def indexChars : Option (IndexSignature TypeExpr) → List (List Char)
  | none => []
  | some ⟨type, optional, readonly⟩ =>
    [afterReadonly readonly ("[key: string]: ".toList ++ indexType optional type (toChars type))]

end

/-- The text of a type expression. -/
def text (type : TypeExpr) : String :=
  String.ofList type.toChars

end TypeExpr

end Typewright
