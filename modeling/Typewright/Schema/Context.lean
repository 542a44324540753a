import Typewright.Options
import Typewright.Schema.Enum

/-!
# Where a schema stands

The context of a schema: its location in the document, the name that its surroundings suggest, and
the declaration it is the schema of.  A `Run` may claim enum names and may fail; names claimed
before a failure stay claimed.
-/

namespace Typewright

/-- The path under which the value at a reference is declared; the root of the document is
    declared under the base name. -/
def declarationPath (baseName reference : String) : List String :=
  match Pointer.split reference with
  | [] => [Naming.identifier baseName]
  | segments => segments.map Naming.identifier

/-- A computation that claims enum names and may fail. -/
abbrev Run (α : Type) : Type :=
  ExceptT Failure (StateM EnumNames) α

/-- Where a schema stands. -/
structure Context where
  options : Options
  /-- The name under which the root of the document is declared. -/
  baseName : String
  /-- The names of the schemas that the document declares. -/
  schemaNames : List String := []
  location : String := Pointer.root
  /-- The name that the surroundings suggest. -/
  hint : Option String := none
  /-- The declaration whose schema this is. -/
  brand : Option String := none
deriving Repr

namespace Context

/-- The context at another location, without hint and brand. -/
def moveTo (context : Context) (location : String) : Context :=
  { context with location, hint := none, brand := none }

/-- The context of a child; it keeps the hint but not the brand. -/
def descend (context : Context) (segment : String) : Context :=
  { context with location := Pointer.child context.location segment, brand := none }

/-- The context with a suggested name. -/
def named (context : Context) (hint : String) : Context :=
  { context with hint := some hint }

/-- The context of the schema of a declaration. -/
def branded (context : Context) (brand : String) : Context :=
  { context with brand := some brand }

/-- The path under which the value at a reference is declared. -/
def pathOf (context : Context) (reference : String) : List String :=
  declarationPath context.baseName reference

/-- A schema that no rule covers: a failure in strict mode, else `unknown` with a warning. -/
def unsupported (context : Context) : Run Typing :=
  if context.options.strict then throw (.unsupportedSchema context.location)
  else pure ((Typing.ofType .unknown).withWarning (.schemaDegraded context.location))

/-- An `enum` that is no array: a failure in strict mode, else `unknown` with a warning. -/
def unsupportedEnum (context : Context) : Run Typing :=
  if context.options.strict then throw (.unsupportedEnum context.location)
  else pure ((Typing.ofType .unknown).withWarning (.enumDegraded context.location))

end Context

end Typewright
