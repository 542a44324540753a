import Typewright.Command.Host
import Std.Time.Format

/-!
# The command line
-/

namespace Typewright.Command

/-- The machine that the program runs on. -/
def machine : Host IO where
  read path := do
    try return some (← IO.FS.readFile path)
    catch _ => return none
  write path content := do
    try
      let parent := (Path.pieces path).dropLast
      if !(parent.all (·.isEmpty)) then IO.FS.createDirAll ("/".intercalate parent)
      IO.FS.writeFile path content
      return true
    catch _ => return false
  say := IO.println
  complain := IO.eprintln
  now := do
    let time ← Std.Time.PlainTime.now
    return { hour := time.hour.val.toNat, minute := time.minute.val.toNat,
             second := time.second.val.toNat }

end Typewright.Command

open Typewright.Command

/-- Carries out a command line. -/
def main (words : List String) : IO UInt32 := do
  match Invocation.parse words with
  | .error error =>
    if error.exitCode = 0 then IO.println error.message else IO.eprintln error.message
    return error.exitCode.toUInt32
  | .ok invocation =>
    let isTerminal ← (← IO.getStdout).isTty
    let palette : Palette := { colored := invocation.colorMode.isOn isTerminal }
    match ← (machine.run palette invocation.request).run with
    | .ok () => return 0
    | .error failure =>
      IO.eprintln ("Error: " ++ failure.message)
      return 1
