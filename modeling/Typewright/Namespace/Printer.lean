import Typewright.Namespace.Basic
import Typewright.TypeExpr.Printer

/-!
# The text of namespaces

One declaration for each declaring fragment, inside the blocks of its namespaces.  A namespace
without declarations is left out.  An object type gathered from members is written with one
member on a line.
-/

namespace Typewright.Namespace

/-- The blanks at the start of a line. -/
def indentation (depth : Nat) : String :=
  String.ofList (List.replicate (2 * depth) ' ')

/-! ### Gathered object types -/

/-- An object type with one member on a line; the texts of the members are indented already. -/
def block (members : List String) (depth : Nat) : String :=
  if members.isEmpty then "\x7b\x7d"
  else "\x7b\n" ++ "\n".intercalate members ++ "\n" ++ indentation depth ++ "\x7d"

/-- The text of a member of an object type; `nested` gives the object type gathered under a
    name. -/
def memberText (nested : String → Nat → String) (depth : Nat) : Fragment → Option String
  | .member _ path optional body =>
    let name := path.getLast?.getD ""
    let type :=
      match body with
      | .type type => type.text
      | .redirect redirect => redirect.type.text
      | .gathered => nested name (depth + 1)
    let mark := if optional then "?" else ""
    some (indentation (depth + 1) ++ Naming.propertyKey name ++ mark ++ ": " ++ type ++ ";")
  | _ => none

/-- The object type gathered under a name, by the gathered types of the namespaces that lie next
    to it; nothing is gathered where there is no namespace. -/
def gatheredIn (types : List (String × (Nat → String))) (name : String) (depth : Nat) : String :=
  match types.lookup name with
  | some type => type depth
  | none => block [] depth

mutual

/-- The object type that the members in a namespace form. -/
def gathered : Namespace → Nat → String
  | node _ members children => fun depth =>
    block (members.filterMap (memberText (gatheredIn (gatheredTypes children)) depth)) depth

/-- The object types formed in each of the namespaces. -/
def gatheredTypes : List Namespace → List (String × (Nat → String))
  | [] => []
  | space :: rest => (space.name, gathered space) :: gatheredTypes rest

end

/-! ### Declarations -/

/-- The declaration of a type. -/
def typeDeclaration (name type : String) : String :=
  "export type " ++ name ++ " = " ++ type ++ ";"

/-- The text of an enum declaration. -/
def enumText (declaration : EnumDeclaration) (depth : Nat) : String :=
  let members := declaration.members.map fun member =>
    indentation (depth + 1) ++ member.name ++ " = " ++ Text.quote member.value ++ ","
  "export enum " ++ declaration.name ++ " \x7b\n" ++ "\n".intercalate members ++ "\n"
    ++ indentation depth ++ "\x7d"

/-- The text of a fragment that declares something in a namespace with these children. -/
def declarationText (children : List Namespace) (depth : Nat) : Fragment → Option String
  | .statement _ name type => some (typeDeclaration name type.text)
  | .declaration _ path body =>
    let name := path.getLast?.getD ""
    some
      (match body with
        | .type type => typeDeclaration name type.text
        | .enum declaration => enumText declaration depth
        | .redirect redirect => typeDeclaration name redirect.type.text
        | .gathered => typeDeclaration name (gatheredIn (gatheredTypes children) name depth))
  | _ => none

/-- The words that open a namespace; only the outermost ones may be declared and not exported. -/
def opening (exported : Bool) (depth : Nat) : String :=
  if depth = 0 && !exported then "declare namespace" else "export namespace"

mutual

/-- The lines of a namespace at a depth. -/
def lines (exported : Bool) : Namespace → Nat → List String
  | node _ members children => fun depth =>
    (members.filterMap (declarationText children depth)).map (indentation depth ++ ·)
      ++ childLines exported children depth

/-- The blocks of the namespaces that have declarations. -/
def childLines (exported : Bool) : List Namespace → Nat → List String
  | [] => fun _ => []
  | space :: rest => fun depth =>
    (if hasDeclarations space then
      [indentation depth ++ opening exported depth ++ " " ++ space.name ++ " \x7b"]
        ++ lines exported space (depth + 1) ++ [indentation depth ++ "\x7d"]
    else []) ++ childLines exported rest depth

end

/-- The text of all namespaces from the root. -/
def text (exported : Bool) (root : Namespace) : String :=
  "\n".intercalate (lines exported root 0) ++ "\n"

end Typewright.Namespace
