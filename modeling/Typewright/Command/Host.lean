import Typewright.Command.Console
import Typewright.Command.Path
import Typewright.Command.Table

/-!
# Carrying out a request

A request needs files, a clock and two streams of lines.  They are given by a `Host`, so the same
run can be carried out on a real machine and on files in memory.
-/

namespace Typewright.Command

/-- What a run needs from its surroundings. -/
structure Host (m : Type → Type) where
  /-- The content of the file at a path, if it can be read. -/
  read : String → m (Option String)
  /-- Writes a file and makes the directories it needs; says whether that worked. -/
  write : String → String → m Bool
  /-- Prints a line of output. -/
  say : String → m Unit
  /-- Prints a line about a problem. -/
  complain : String → m Unit
  /-- The time of day. -/
  now : m Time

/-- Why a request could not be carried out. -/
inductive RunFailure where
  /-- There is no document at the path, or it is not well-formed. -/
  | unreadable (path : String)
  /-- The file at the path could not be written. -/
  | unwritable (path : String)
  /-- The document has no declarations. -/
  | refused (failure : Failure)
deriving DecidableEq, Repr

namespace RunFailure

/-- What to tell the user. -/
def message : RunFailure → String
  | unreadable path => "cannot read `" ++ path ++ "`"
  | unwritable path => "cannot write `" ++ path ++ "`"
  | refused failure => failure.report

end RunFailure

namespace Host

variable {m : Type → Type} [Monad m]

/-- Reads the document at a path. -/
def document (host : Host m) (path : String) : ExceptT RunFailure m Json := do
  match (← host.read path).bind (Path.format path).read? with
  | some document => return document
  | none => throw (.unreadable path)

/-- Prints a message with the time, unless the job is quiet. -/
def log (host : Host m) (palette : Palette) (job : Job) (role : Role) (message : String) :
    m Unit := do
  if !job.quiet then host.say (Console.timed palette (← host.now) role message)

/-- Prints the statistics of a run and its warnings, unless the job is quiet.  A blank line comes
    before the first warning. -/
def logStatistics (host : Host m) (palette : Palette) (job : Job) (stats : Statistics) :
    m Unit := do
  if !job.quiet then
    (Console.statistics palette job.verbose stats).forM host.say
    let warnings := Console.shownWarnings job.verbose stats.warnings
    if !warnings.isEmpty then host.say ""
    warnings.forM fun warning => host.complain (Console.warning palette warning)

/-- Generates declarations. -/
def generate (host : Host m) (palette : Palette) (job : Job) : ExceptT RunFailure m Unit := do
  host.log palette job .primary ("Loading document from: " ++ job.input)
  let document ← host.document job.input
  host.log palette job .primary (Console.announcement (DocumentKind.ofDocument document))
  match Generation.file document job.options job.input with
  | .error failure => throw (.refused failure)
  | .ok (code, stats) =>
    host.logStatistics palette job stats
    host.log palette job .primary ("Writing to: " ++ job.output)
    if !(← host.write job.output code) then throw (.unwritable job.output)
    if !job.quiet then host.say ""
    host.log palette job .success "Successfully generated TypeScript declarations"

/-- Lists the operations of a document. -/
def listOperations (host : Host m) (input : String) : ExceptT RunFailure m Unit := do
  let document ← host.document input
  (operationsTable (Api.operationEntries document)).forM (host.say ·)

/-- Carries out a request. -/
def run (host : Host m) (palette : Palette) : Request → ExceptT RunFailure m Unit
  | .operations input => host.listOperations input
  | .generate job => host.generate palette job

end Host

end Typewright.Command
