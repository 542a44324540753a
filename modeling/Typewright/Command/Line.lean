import Typewright.Command.Argument

/-!
# Reading a command line

Words are read from left to right.  The value of an argument may be attached to it or be the next
word; a value that is a word of its own is checked only when the next argument comes, or at the
end.  A subcommand takes all words after it, and its errors come before those of the values that
are still unchecked around it.
-/

namespace Typewright.Command

/-- An argument and its value. -/
abbrev Assignment := Argument × Option String

/-! ### Arguments of one level -/

/-- The arguments read so far. -/
structure Given where
  /-- The arguments that were checked, in order. -/
  assignments : List Assignment := []
  /-- The argument that is still unchecked, with its value if that has been read. -/
  pending : Option Assignment := none

namespace Given

/-- Whether an argument has been given. -/
def has (given : Given) (argument : Argument) : Bool :=
  given.assignments.any (·.1 == argument)

/-- Whether the next word is the value of an argument. -/
def awaitsValue (given : Given) : Bool :=
  given.pending.any (·.2.isNone)

/-- Checks an argument and its value, and adds them. -/
def accept (given : Given) (argument : Argument) (value : Option String) :
    Except UsageError Given := do
  if argument.takesValue && value.isNone then throw .missingValue
  if argument = .help then throw .help
  if argument = .version then throw .version
  if !argument.isRepeatable && given.has argument then throw .conflict
  if let some flaw := value.bind argument.flaw? then throw flaw
  return { given with assignments := given.assignments ++ [(argument, value)] }

/-- Checks the argument that is still unchecked. -/
def settle (given : Given) : Except UsageError Given :=
  match given.pending with
  | none => pure given
  | some (argument, value) => { given with pending := none }.accept argument value

/-- Adds an argument with its value, or without one. -/
def give (given : Given) (argument : Argument) (value : Option String) :
    Except UsageError Given := do
  (← given.settle).accept argument value

/-- Adds an argument whose value is the next word. -/
def await (given : Given) (argument : Argument) : Except UsageError Given := do
  return { ← given.settle with pending := some (argument, none) }

/-- Takes a word as the value that is awaited. -/
def supply (given : Given) (word : String) : Given :=
  { given with pending := given.pending.map fun (argument, _) => (argument, some word) }

end Given

/-! ### Words -/

/-- Reads the word after two dashes: the name of an argument, perhaps with a value. -/
def readNamed (level : Level) (given : Given) (word : List Char) : Except UsageError Given := do
  let name := word.takeWhile (· != '=')
  let value :=
    match word.dropWhile (· != '=') with
    | [] => none
    | _ :: value => some (String.ofList value)
  match level.named? name, value with
  | none, _ => throw .unknownArgument
  | some argument, none =>
    if argument.takesValue then given.await argument else given.give argument none
  | some argument, some value =>
    if argument.takesValue then given.give argument (some value) else throw .unneededValue

/-- Reads the word after one dash: letters of arguments, the last one perhaps with a value. -/
def readLetters (level : Level) (given : Given) : List Char → Except UsageError Given
  | [] => pure given
  | letter :: rest =>
    match level.lettered? letter with
    | none => throw .unknownArgument
    | some argument =>
      if argument.takesValue then
        match rest with
        | [] => given.await argument
        | '=' :: value => given.give argument (some (String.ofList value))
        | value => given.give argument (some (String.ofList value))
      else do
        let given ← given.give argument none
        readLetters level given rest

/-- The error for the word after two dashes alone, if there is one. -/
def afterDashes (level : Level) : List String → Option UsageError
  | [] => none
  | word :: _ => some (if level.hasSubcommand word then .unknownArgument else level.strayWord)

/-- Whether two arguments that exclude each other have been given. -/
def Given.hasConflict (given : Given) : Bool :=
  given.assignments.any fun (argument, _) => argument.excludes.any given.has

/-- Checks the arguments of a level that no subcommand follows. -/
def finish (level : Level) (given : Given) : Except UsageError Given := do
  let given ← given.settle
  if level.isGroup then
    throw (if given.assignments.isEmpty then .helpNeeded else .missingSubcommand)
  if given.hasConflict then throw .conflict
  if !level.required.all given.has then throw .missingArgument
  return given

/-- The command that a command line names, and the arguments of the levels down to it. -/
structure Line where
  command : Level
  /-- The arguments of the command itself. -/
  given : List Assignment
  /-- The arguments of the groups around it, the innermost group first. -/
  outer : List (List Assignment) := []

namespace Line

/-- Reads the words of a level. -/
def read (level : Level) (given : Given) : List String → Except UsageError Line
  | [] => do
    return { command := level, given := (← finish level given).assignments }
  | word :: rest => do
    if !given.awaitsValue && level.isGroup then
      if word = Level.helpName then throw (level.helpAnswer rest)
      if let some sub := level.subcommands.lookup word then
        let line ← read sub {} rest
        let given ← given.settle
        return { line with outer := line.outer ++ [given.assignments] }
    match word.toList with
    | ['-', '-'] =>
      match afterDashes level rest with
      | some error => throw error
      | none => return { command := level, given := (← finish level given).assignments }
    | '-' :: '-' :: named =>
      let given ← readNamed level given named
      read level given rest
    | '-' :: letter :: letters =>
      let given ← readLetters level given (letter :: letters)
      read level given rest
    | _ =>
      if given.awaitsValue then read level (given.supply word) rest else throw level.strayWord

/-- The value of an argument of the command, if it was given. -/
def value? (line : Line) (argument : Argument) : Option String :=
  (line.given.lookup argument).join

/-- The values of a repeatable argument. -/
def values (line : Line) (argument : Argument) : List String :=
  line.given.filterMap fun (given, value) => if given = argument then value else none

/-- Whether an argument of the command was given. -/
def has (line : Line) (argument : Argument) : Bool :=
  line.given.any (·.1 == argument)

/-- When the output is coloured: the innermost level that says so decides. -/
def colorMode (line : Line) : ColorMode :=
  let chosen := (line.given :: line.outer).findSome? fun given =>
    (given.lookup .color).join.bind ColorMode.ofName?
  chosen.getD .auto

end Line

end Typewright.Command
