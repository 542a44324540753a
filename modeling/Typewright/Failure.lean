/-!
# Failures

What stops a run.  The first failure ends the whole run and nothing is generated.
-/

namespace Typewright

/-- A reason why nothing can be generated. -/
inductive Failure where
  /-- A path does not lead anywhere: the segment named is missing, or there is no document. -/
  | unresolved (path : List String) (segment : Option String)
  /-- An operation has no identifier of its own and must have one. -/
  | operationIdRequired (method path : String)
  /-- The value of `enum` is no array. -/
  | unsupportedEnum (reference : String)
  /-- No rule covers the schema. -/
  | unsupportedSchema (reference : String)
  /-- A `type` that is unknown or badly written. -/
  | badType (type reference : String)
  /-- A composed schema without any branches. -/
  | composedSchemaUnsupported (reference : String)
  /-- A header that is described by `content`. -/
  | unsupportedHeader (reference : String)
deriving DecidableEq, Repr

namespace Failure

/-- The code of a failure. -/
def code : Failure → String
  | unresolved _ _ => "E_RESOLVE"
  | operationIdRequired _ _ => "E_OPERATION_ID_REQUIRED"
  | unsupportedEnum _ => "E_UNSUPPORTED_ENUM"
  | unsupportedSchema _ => "E_UNSUPPORTED_SCHEMA"
  | badType _ _ => "E_BAD_TYPE"
  | composedSchemaUnsupported _ => "E_COMPOSED_SCHEMA_UNSUPPORTED"
  | unsupportedHeader _ => "E_UNSUPPORTED_HEADER"

/-- What a path lacks. -/
def missingText : Option String → String
  | some segment => "segment `" ++ segment ++ "` is missing"
  | none => "the document root is undefined"

/-- The text of a failure. -/
def message : Failure → String
  | unresolved path segment =>
    "cannot resolve `#/" ++ "/".intercalate path ++ "`: " ++ missingText segment
  | operationIdRequired method path =>
    "operation `" ++ method ++ " " ++ path ++ "` has no operationId"
  | unsupportedEnum reference => "unsupported enum at `" ++ reference ++ "`"
  | unsupportedSchema reference => "unsupported schema at `" ++ reference ++ "`"
  | badType type reference => "unknown type `" ++ type ++ "` at `" ++ reference ++ "`"
  | composedSchemaUnsupported reference =>
    "schema at `" ++ reference ++ "` has none of oneOf/anyOf/allOf"
  | unsupportedHeader reference =>
    "header at `" ++ reference ++ "` is declared through `content`, only `schema` is supported"

/-- The code in brackets and the text. -/
def report (failure : Failure) : String :=
  "[" ++ failure.code ++ "] " ++ failure.message

end Failure

end Typewright
