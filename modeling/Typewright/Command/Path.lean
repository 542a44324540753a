import Typewright.DocumentFormat
import Typewright.Text.Blank

/-!
# Paths of files

A path is a text whose parts are divided by slashes.  Empty parts and single dots lead nowhere.
-/

namespace Typewright.Command.Path

/-- The texts between the slashes of a path. -/
def pieces (path : String) : List String :=
  (Text.splitOnChar '/' path.toList).map String.ofList

/-- The parts of a path that lead somewhere. -/
def parts (path : String) : List String :=
  (pieces path).filter fun piece => piece != "" && piece != "."

/-- Whether a path stays below the place where it starts: it names no root, does not go up and
    does not begin with a dot. -/
def isPlain (path : String) : Bool :=
  match pieces path with
  | [] => true
  | first :: rest =>
    first != "." && (first != "" || rest.isEmpty) && !(first :: rest).contains ".."

/-- Whether only a directory can stand at the end of a path. -/
def namesDirectory (path : String) : Bool :=
  (pieces path).getLast?.any fun piece => piece == "" || piece == "."

/-- What follows the last dot of a file name; a dot at its start does not count. -/
def extension? (path : String) : Option String := do
  let name ← (parts path).getLast?
  match (Text.splitOnChar '.' name.toList).reverse with
  | last :: stem :: before =>
    if before.isEmpty && stem.isEmpty then none else some (String.ofList last)
  | _ => none

/-- The format of the document at a path. -/
def format (path : String) : DocumentFormat :=
  (extension? path).elim .json DocumentFormat.ofExtension

end Typewright.Command.Path
