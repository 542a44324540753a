import Typewright.Fragment.Set
import Typewright.Json.Basic
import Typewright.Naming
import Typewright.Pointer

/-!
# Enumerations and constants

A constant denotes the type that holds just its value.  An enumeration of strings may become an
enum declaration; the names of such declarations are claimed one after the other, so that one name
always stands for one list of values, and equal lists with one wished name share it.
-/

namespace Typewright

/-- The names of enum declarations claimed so far, each with the values it stands for. -/
abbrev EnumNames : Type :=
  List (String × List String)

namespace EnumNames

/-- Whether a name is free, or stands for these values already. -/
def accepts (names : EnumNames) (values : List String) (name : String) : Bool :=
  match names.lookup name with
  | some claimed => claimed == values
  | none => true

/-- Claims the first numbered name that is free or stands for these values already. -/
def claim (names : EnumNames) (base : String) (values : List String) : String × EnumNames :=
  let name := Naming.firstNumbered base (names.length + 1) (names.accepts values)
  match names.lookup name with
  | some _ => (name, names)
  | none => (name, (name, values) :: names)

end EnumNames

namespace EnumDeclaration

/-- The namespace of enum declarations. -/
def space : String :=
  "Enums"

/-- The members for a list of values, their names made from the values and numbered where two
    would be equal; `taken` are the names given so far. -/
def membersFrom (taken : List String) : List String → List EnumMember
  | [] => []
  | value :: rest =>
    let name := Naming.fresh taken (Naming.identifier value)
    { name, value } :: membersFrom (name :: taken) rest

/-- The enum declaration of that name for a list of values. -/
def ofValues (name : String) (values : List String) : EnumDeclaration :=
  { name, members := membersFrom [] values }

/-- The path of the enum declaration of that name. -/
def pathOf (name : String) : List String :=
  [space, name]

/-- The reference of the enum declaration of that name. -/
def referenceOf (name : String) : String :=
  Pointer.join ["enums", name]

/-- The fragment that declares an enum. -/
def toFragment (declaration : EnumDeclaration) : Fragment :=
  .declaration (referenceOf declaration.name) (pathOf declaration.name) (.enum declaration)

end EnumDeclaration

namespace TypeExpr

mutual

/-- The type that holds just one value. -/
def ofConst : Json → TypeExpr
  | .null => null
  | .bool value => literal (.boolean value)
  | .number value => literal (.number value)
  | .string value => literal (.string value)
  | .array items => tuple (ofConsts items) none
  | .object fields => object (ofConstFields fields) none

/-- The types that hold just one value each. -/
def ofConsts : List Json → List TypeExpr
  | [] => []
  | item :: rest => ofConst item :: ofConsts rest

/-- The properties that hold just one value each. -/
def ofConstFields : List (String × Json) → List (Property TypeExpr)
  | [] => []
  | (name, value) :: rest => { name, type := ofConst value } :: ofConstFields rest

end

end TypeExpr

end Typewright
