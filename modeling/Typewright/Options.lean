import Typewright.Json.Basic

/-!
# Options of a run
-/

namespace Typewright

/-- Which declarations get a brand, a member `_type` that tells types of equal shape apart. -/
inductive BrandPolicy where
  /-- No declaration. -/
  | nothing
  /-- The declarations of these names. -/
  | names (names : List String)
  /-- Every named schema. -/
  | all
  /-- The schemas that the document declares. -/
  | schemas
deriving DecidableEq, Repr

/-- The two kinds of documents. -/
inductive DocumentKind where
  /-- A description of an interface with its operations. -/
  | api
  /-- A schema that stands alone. -/
  | schema
deriving DecidableEq, Repr

namespace DocumentKind

/-- The name of a kind. -/
def name : DocumentKind → String
  | api => "api"
  | schema => "schema"

/-- The kind of that name. -/
def ofName? : String → Option DocumentKind
  | "api" => some api
  | "schema" => some schema
  | _ => none

/-- A document with a field `openapi` or `swagger` describes an interface. -/
def ofDocument (document : Json) : DocumentKind :=
  if (document.field? "openapi").isSome || (document.field? "swagger").isSome then api else schema

end DocumentKind

/-- The options of a run. -/
structure Options where
  /-- The name of the root declaration, or of the namespace of the operations. -/
  baseName : Option String := none
  brands : BrandPolicy := .nothing
  /-- Enumerations of strings become enum declarations. -/
  realEnums : Bool := false
  /-- The statuses whose responses are kept; none listed keeps all. -/
  statuses : List String := []
  /-- Schemas that nothing refers to are generated too. -/
  allSchemas : Bool := false
  camelizeInputs : Bool := true
  /-- Arrays of a fixed length below the limit become tuples. -/
  tupleLimit : Nat := 5
  exportNamespaces : Bool := false
  /-- What no rule covers is a failure and not a warning. -/
  strict : Bool := false
  /-- An operation without an identifier is a failure and not a warning. -/
  requireCleanApi : Bool := false
deriving DecidableEq, Repr

namespace Options

/-- The base name, by default one for each kind of document. -/
def baseNameFor (options : Options) (kind : DocumentKind) : String :=
  options.baseName.getD
    (match kind with
      | .api => "API"
      | .schema => "Main")

/-- Whether a declaration gets a brand, given the names of the declared schemas. -/
def isBranded (options : Options) (name : String) (schemaNames : List String) : Bool :=
  match options.brands with
  | .nothing => false
  | .all => true
  | .names names => names.contains name
  | .schemas => schemaNames.contains name

/-- Equality of texts up to the case of Latin letters. -/
def sameIgnoringCase (s t : String) : Bool :=
  s.toList.map Char.toLower == t.toList.map Char.toLower

/-- Whether a response of this status is kept. -/
def keepsStatus (options : Options) (status : String) : Bool :=
  options.statuses.isEmpty || options.statuses.any (sameIgnoringCase · status)

end Options

end Typewright
