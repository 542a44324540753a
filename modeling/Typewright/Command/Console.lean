import Typewright.Generation
import Typewright.Command.Invocation

/-!
# Lines on the console

What a run tells the user, line by line.  Every piece of a line has a role, and the palette gives
the role its colour; without colours every role has the default colour of the terminal.
-/

namespace Typewright.Command

/-! ### Colours -/

/-- What a piece of output is. -/
inductive Role where
  | timestamp
  | primary
  | accent
  | success
  | label
  | value
deriving DecidableEq, Repr

/-- Whether roles have colours of their own. -/
structure Palette where
  colored : Bool
deriving DecidableEq, Repr

namespace Palette

/-- The parameters that the terminal takes for the colour of a role. -/
def color (palette : Palette) (role : Role) : String :=
  if palette.colored then
    match role with
    | .timestamp | .success => "38;2;118;166;166"
    | .primary => "38;2;191;126;4"
    | .accent => "38;2;166;84;55"
    | .label => "38;2;217;164;4"
    | .value => "38;2;242;211;56"
  else "39"

/-- A text in the colour of its role, after which the default colour is set again. -/
def paint (palette : Palette) (role : Role) (text : String) : String :=
  "\x1b[" ++ palette.color role ++ "m" ++ text ++ "\x1b[39m"

end Palette

/-! ### Times -/

/-- A time of day. -/
structure Time where
  hour : Nat
  minute : Nat
  second : Nat
deriving DecidableEq, Repr

/-- A number with at least two digits. -/
def twoDigits (n : Nat) : String :=
  String.ofList (List.replicate (2 - (Decimal.digitsOf n).length) '0' ++ Decimal.digitsOf n)

/-- A time in square brackets. -/
def Time.stamp (time : Time) : String :=
  "[" ++ ":".intercalate ([time.hour, time.minute, time.second].map twoDigits) ++ "]"

/-! ### Lines -/

namespace Console

/-- The number of something, as text. -/
def count (n : Nat) : String :=
  String.ofList (Decimal.digitsOf n)

/-- A message with the time. -/
def timed (palette : Palette) (time : Time) (role : Role) (message : String) : String :=
  palette.paint .timestamp time.stamp ++ " " ++ palette.paint role message

/-- A label and a value. -/
def entry (palette : Palette) (label value : String) : String :=
  "            " ++ palette.paint .label label ++ " " ++ palette.paint .value value

/-- How many references a pass expanded; passes are counted from one. -/
def passLine (palette : Palette) (pass expanded : Nat) : String :=
  "              " ++ palette.paint .accent ("Pass " ++ count (pass + 1)) ++ ": "
    ++ palette.paint .value (count expanded ++ " references")

/-- The announcement of generation. -/
def announcement : DocumentKind → String
  | .api => "Generating TypeScript declarations for API document..."
  | .schema => "Generating TypeScript declarations for schema..."

/-- The lines of some entries that are left out when their number is zero. -/
def unlessZero (n : Nat) (line : String) : List String :=
  if n = 0 then [] else [line]

/-- The statistics of a run.  Passes and references that are still assumed are shown only when
    the output is verbose. -/
def statistics (palette : Palette) (verbose : Bool) (stats : Statistics) : List String :=
  let entry := entry palette
  [entry "Declarations generated:" (count stats.declarations)]
    ++ unlessZero stats.enums (entry "" (count stats.enums ++ " enums"))
    ++ [entry "" (count stats.members ++ " interface members"),
      entry "" (count stats.statements ++ " statements")]
    ++ unlessZero stats.operations (entry "Operations converted:" (count stats.operations))
    ++ [entry "References expanded:" (count stats.expanded),
      entry "Fixed-point passes:" (count stats.passes)]
    ++ (if verbose then stats.perPass.mapIdx (passLine palette) else [])
    ++ (if verbose then
          unlessZero stats.placeholders (entry "Placeholders:" (count stats.placeholders))
        else [])
    ++ unlessZero stats.warnings.length (entry "Warnings:" (count stats.warnings.length))

/-- The line of a warning. -/
def warning (palette : Palette) (warning : Warning) : String :=
  palette.paint .accent (if warning.isSkippedItem then "Skipped:" else "Warning:") ++ " "
    ++ palette.paint .primary warning.text

/-- The warnings that are shown: those about skipped items always, the others when the output is
    verbose. -/
def shownWarnings (verbose : Bool) (warnings : List Warning) : List Warning :=
  warnings.filter fun warning => verbose || warning.isSkippedItem

end Console

end Typewright.Command
