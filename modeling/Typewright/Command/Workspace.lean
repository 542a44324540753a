import Typewright.Command.Host

/-!
# Files in memory

A host whose files are kept in memory and whose lines are collected.  Directories are not kept:
a directory is there if a file lies below it.
-/

namespace Typewright.Command

/-- Files by the parts of their paths, and the lines printed so far. -/
structure Workspace where
  files : List (List String × String) := []
  output : List String := []
  problems : List String := []
  time : Time := { hour := 0, minute := 0, second := 0 }

namespace Workspace

/-- The longest name of a file in octets. -/
def nameLimit : Nat :=
  255

/-- The longest path in octets. -/
def pathLimit : Nat :=
  4095

/-- Whether there can be a file at a path. -/
def isFilePath (path : String) : Bool :=
  !Path.namesDirectory path && !path.toList.contains (Char.ofNat 0)
    && path.utf8ByteSize ≤ pathLimit && (Path.parts path).all (·.utf8ByteSize ≤ nameLimit)

/-- The content of the file at a path. -/
def read? (workspace : Workspace) (path : String) : Option String :=
  if isFilePath path then workspace.files.lookup (Path.parts path) else none

/-- Whether one path leads through the other. -/
def isBelow (outer inner : List String) : Bool :=
  outer.length < inner.length && outer.isPrefixOf inner

/-- Whether a file can be written at a path: it would not replace a directory, and no file stands
    where it needs a directory. -/
def admits (workspace : Workspace) (path : String) : Bool :=
  isFilePath path && !workspace.files.any fun (other, _) =>
    isBelow other (Path.parts path) || isBelow (Path.parts path) other

/-- Writes a file, if it can be written. -/
def write? (workspace : Workspace) (path content : String) : Option Workspace :=
  if workspace.admits path then
    let parts := Path.parts path
    let others := workspace.files.filter (·.1 != parts)
    some { workspace with files := (parts, content) :: others }
  else none

/-- A host with its files in memory. -/
def host : Host (StateM Workspace) where
  read path := return (← get).read? path
  write path content := do
    match (← get).write? path content with
    | some workspace =>
      set workspace
      return true
    | none => return false
  say line := modify fun w => { w with output := w.output ++ [line] }
  complain line := modify fun w => { w with problems := w.problems ++ [line] }
  now := return (← get).time

/-- A workspace with the given files. -/
def ofFiles (files : List (String × String)) : Workspace :=
  { files := files.map fun (path, content) => (Path.parts path, content) }

/-- Carries out a request on files in memory.  Nothing there is a terminal. -/
def run (workspace : Workspace) (invocation : Invocation) :
    Except RunFailure Unit × Workspace :=
  let palette : Palette := { colored := invocation.colorMode.isOn false }
  (host.run palette invocation.request).run.run workspace

end Workspace

end Typewright.Command
