import Typewright.Json.Reader
import Typewright.Yaml.Reader

/-!
# Formats of documents

A document is written in JSON or in YAML; the extension of its file name tells which.
-/

namespace Typewright

/-- The format that a document is written in. -/
inductive DocumentFormat where
  | json
  | yaml
deriving DecidableEq, Repr

namespace DocumentFormat

/-- The format of files with the given extension: JSON unless the extension names YAML. -/
def ofExtension : String → DocumentFormat
  | "yaml" | "yml" => yaml
  | _ => json

/-- The value of a text in the format, if it can be read. -/
def read? : DocumentFormat → String → Option Json
  | json => Json.read?
  | yaml => Yaml.read?

end DocumentFormat

end Typewright
