/-!
# Warnings

What a run notes without failing.
-/

namespace Typewright

/-- A note of a run. -/
inductive Warning where
  /-- No rule covers a schema; it denotes `unknown`. -/
  | schemaDegraded (reference : String)
  /-- The value of `enum` is no array; the schema denotes `unknown`. -/
  | enumDegraded (reference : String)
  /-- An operation has no identifier of its own; one was made from its method and path. -/
  | operationIdSynthesized (method path operationId : String)
  /-- The options leave out a response. -/
  | responseFiltered (operationId status : String)
deriving DecidableEq, Repr

namespace Warning

/-- The text of a warning. -/
def text : Warning → String
  | schemaDegraded reference =>
    "Unsupported schema at '" ++ reference ++ "' was translated to unknown"
  | enumDegraded reference => "Unsupported enum at '" ++ reference ++ "' was translated to unknown"
  | operationIdSynthesized method path operationId =>
    "Operation '" ++ method ++ " " ++ path ++ "' has no operationId, using '" ++ operationId ++ "'"
  | responseFiltered operationId status =>
    "[" ++ operationId ++ "] response '" ++ status ++ "' skipped by the status filter"

/-- Whether something is missing from the output, and not only less precise. -/
def isSkippedItem : Warning → Bool
  | responseFiltered _ _ => true
  | _ => false

end Warning

end Typewright
