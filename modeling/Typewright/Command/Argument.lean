import Typewright.Text.Natural

/-!
# Commands and their arguments

The commands form a tree: a group of commands has subcommands, and every command has arguments of
its own.  What is wrong with a command line is a `UsageError`.
-/

namespace Typewright.Command

/-! ### Errors -/

/-- What stops a command line from being carried out. -/
inductive UsageError where
  /-- Help was asked for. -/
  | help
  /-- The version was asked for. -/
  | version
  /-- A group of commands stands alone, so help is shown. -/
  | helpNeeded
  /-- A group of commands has arguments but no command. -/
  | missingSubcommand
  | unknownSubcommand
  | unknownArgument
  /-- A value is missing. -/
  | missingValue
  /-- A value is none of the values that may be chosen, or an empty path. -/
  | refusedValue
  /-- A value is not written as it should be. -/
  | malformedValue
  /-- An argument that takes no value has one. -/
  | unneededValue
  /-- Two arguments exclude each other, or one is given twice. -/
  | conflict
  | missingArgument
deriving DecidableEq, Repr

namespace UsageError

/-- The exit code: asking for help or for the version is no mistake. -/
def exitCode : UsageError → Nat
  | help | version => 0
  | _ => 2

/-- What to tell the user. -/
def message : UsageError → String
  | help | helpNeeded => "usage: schema-dts [--color MODE] (generate | list operations) [OPTIONS]"
  | version => "schema-dts 0.6.0"
  | missingSubcommand => "error: a subcommand is required"
  | unknownSubcommand => "error: unknown subcommand"
  | unknownArgument => "error: unexpected argument"
  | missingValue => "error: a value is required"
  | refusedValue => "error: invalid value"
  | malformedValue => "error: malformed value"
  | unneededValue => "error: unexpected value"
  | conflict => "error: conflicting arguments"
  | missingArgument => "error: required arguments were not provided"

end UsageError

/-! ### Arguments -/

/-- The arguments of all commands. -/
inductive Argument where
  | color
  | help
  | version
  | input
  | output
  | baseName
  | brand
  | brandAll
  | brandSchemas
  | realEnums
  | status
  | allSchemas
  | noCamelizeInputs
  | tupleLimit
  | exportNamespaces
  | strict
  | requireCleanApi
  | verbose
  | quiet
deriving DecidableEq, Repr

namespace Argument

/-- The name that is written after two dashes. -/
def name : Argument → String
  | color => "color"
  | help => "help"
  | version => "version"
  | input => "input"
  | output => "output"
  | baseName => "base-name"
  | brand => "brand"
  | brandAll => "brand-all"
  | brandSchemas => "brand-schemas"
  | realEnums => "real-enums"
  | status => "status"
  | allSchemas => "all-schemas"
  | noCamelizeInputs => "no-camelize-inputs"
  | tupleLimit => "tuple-limit"
  | exportNamespaces => "export-namespaces"
  | strict => "strict"
  | requireCleanApi => "require-clean-api"
  | verbose => "verbose"
  | quiet => "quiet"

/-- The letter that is written after one dash. -/
def letter? : Argument → Option Char
  | help => some 'h'
  | version => some 'V'
  | input => some 'i'
  | output => some 'o'
  | verbose => some 'v'
  | quiet => some 'q'
  | _ => none

/-- Whether the argument has a value. -/
def takesValue : Argument → Bool
  | color | input | output | baseName | brand | status | tupleLimit => true
  | _ => false

/-- Whether the argument may be given several times. -/
def isRepeatable : Argument → Bool
  | brand | status => true
  | _ => false

/-- The arguments that an argument excludes. -/
def excludes : Argument → List Argument
  | brand => [brandAll, brandSchemas]
  | brandAll => [brandSchemas]
  | quiet => [verbose]
  | _ => []

end Argument

/-- When the output is coloured. -/
inductive ColorMode where
  | always
  | auto
  | never
deriving DecidableEq, Repr

namespace ColorMode

/-- The mode of that name. -/
def ofName? : String → Option ColorMode
  | "always" => some always
  | "auto" => some auto
  | "never" => some never
  | _ => none

/-- Whether the output is coloured, given whether it goes to a terminal. -/
def isOn (isTerminal : Bool) : ColorMode → Bool
  | always => true
  | auto => isTerminal
  | never => false

end ColorMode

namespace Argument

/-- What is wrong with a value of the argument, if anything is. -/
def flaw? (argument : Argument) (value : String) : Option UsageError :=
  match argument with
  | color => if (ColorMode.ofName? value).isSome then none else some .refusedValue
  | input | output => if value.isEmpty then some .refusedValue else none
  | tupleLimit => if (Text.word? value).isSome then none else some .malformedValue
  | _ => none

end Argument

/-! ### Levels -/

/-- The commands and the groups of commands. -/
inductive Level where
  /-- The group of all commands. -/
  | root
  /-- The group of commands that list something. -/
  | list
  | operations
  | generate
deriving DecidableEq, Repr

namespace Level

/-- The commands of a group by their names. -/
def subcommands : Level → List (String × Level)
  | root => [("list", list), ("generate", generate)]
  | list => [("operations", operations)]
  | _ => []

/-- Whether a level is a group of commands. -/
def isGroup (level : Level) : Bool :=
  !level.subcommands.isEmpty

/-- The subcommand of every group that shows help. -/
def helpName : String :=
  "help"

/-- The arguments of a level; the choice of colours belongs to all of them. -/
def arguments : Level → List Argument
  | root => [.color, .help, .version]
  | list => [.color, .help]
  | operations => [.input, .color, .help]
  | generate =>
    [.input, .output, .baseName, .brand, .brandAll, .brandSchemas, .realEnums, .status,
      .allSchemas, .noCamelizeInputs, .tupleLimit, .exportNamespaces, .strict, .requireCleanApi,
      .verbose, .quiet, .color, .help]

/-- The arguments that a command cannot do without. -/
def required : Level → List Argument
  | operations => [.input]
  | generate => [.input, .output]
  | _ => []

/-- The argument with the given name. -/
def named? (level : Level) (name : List Char) : Option Argument :=
  level.arguments.find? (·.name.toList == name)

/-- The argument with the given letter. -/
def lettered? (level : Level) (letter : Char) : Option Argument :=
  level.arguments.find? (·.letter? == some letter)

/-- Whether a word is a subcommand of the level. -/
def hasSubcommand (level : Level) (word : String) : Bool :=
  level.isGroup && (word == helpName || (level.subcommands.lookup word).isSome)

/-- The error for a word that the level has no use for. -/
def strayWord (level : Level) : UsageError :=
  if level.isGroup then .unknownSubcommand else .unknownArgument

/-- The answer to a request for help about the commands that the words lead to. -/
def helpAnswer (level : Level) : List String → UsageError
  | [] => .help
  | word :: rest =>
    match level.subcommands.lookup word with
    | some sub => helpAnswer sub rest
    | none =>
      if level.isGroup && word == helpName && rest.isEmpty then .help else .unknownSubcommand

end Level

end Typewright.Command
