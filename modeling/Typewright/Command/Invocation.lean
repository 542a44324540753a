import Typewright.Command.Line
import Typewright.Options

/-!
# What a command line asks for
-/

namespace Typewright.Command

/-- A request to generate declarations. -/
structure Job where
  /-- The path of the document. -/
  input : String
  /-- The path that the declarations are written to. -/
  output : String
  verbose : Bool := false
  quiet : Bool := false
  options : Options := {}
deriving DecidableEq, Repr

/-- What can be asked for. -/
inductive Request where
  /-- List the operations of the document at a path. -/
  | operations (input : String)
  | generate (job : Job)
deriving DecidableEq, Repr

/-- A request, and when its output is coloured. -/
structure Invocation where
  request : Request
  colorMode : ColorMode := .auto
deriving DecidableEq, Repr

namespace Line

/-- The brand policy of a command line: names come first, then all schemas. -/
def brands (line : Line) : BrandPolicy :=
  match line.values .brand with
  | [] =>
    if line.has .brandAll then .all else if line.has .brandSchemas then .schemas else .nothing
  | names => .names names

/-- The options of a command line. -/
def options (line : Line) : Options :=
  let defaults : Options := {}
  { baseName := line.value? .baseName
    brands := line.brands
    realEnums := line.has .realEnums
    statuses := line.values .status
    allSchemas := line.has .allSchemas
    camelizeInputs := !line.has .noCamelizeInputs
    tupleLimit := ((line.value? .tupleLimit).bind Text.word?).getD defaults.tupleLimit
    exportNamespaces := line.has .exportNamespaces
    strict := line.has .strict
    requireCleanApi := line.has .requireCleanApi }

/-- The request of a command line. -/
def request? (line : Line) : Option Request := do
  let input ← line.value? .input
  match line.command with
  | .operations => some (.operations input)
  | .generate =>
    let output ← line.value? .output
    some
      (.generate
        { input
          output
          verbose := line.has .verbose
          quiet := line.has .quiet
          options := line.options })
  | _ => none

end Line

/-- Reads the words of a command line. -/
def Invocation.parse (words : List String) : Except UsageError Invocation := do
  let line ← Line.read .root {} words
  match line.request? with
  | some request => return { request, colorMode := line.colorMode }
  | none => throw .missingArgument

end Typewright.Command
