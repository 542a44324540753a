import Typewright.Fragment.Basic

/-!
# Namespaces

Fragments grouped by path: a fragment with the path `A.B.C` is a member of the namespace `A.B`,
and a statement is a member of the root.  Assumed fragments are in no namespace.  The children of
a namespace stand in the order in which they were first needed.
-/

namespace Typewright

/-- A namespace with its members and the namespaces inside it. -/
inductive Namespace where
  | node (name : String) (members : List Fragment) (children : List Namespace)

namespace Namespace

/-- The name; the root has the empty one. -/
def name : Namespace → String
  | node name _ _ => name

/-- The fragments that are direct members. -/
def members : Namespace → List Fragment
  | node _ members _ => members

/-- The namespaces directly inside. -/
def children : Namespace → List Namespace
  | node _ _ children => children

/-- A namespace with nothing in it. -/
def empty (name : String) : Namespace :=
  node name [] []

/-- The child of that name. -/
def child? (space : Namespace) (name : String) : Option Namespace :=
  space.children.find? (·.name == name)

/-- The namespace at a path. -/
def find? (space : Namespace) : List String → Option Namespace
  | [] => some space
  | segment :: rest => (space.child? segment).bind (find? · rest)

/-- Changes the child of that name, which is added at the end if it is missing. -/
def updateChild (name : String) (change : Namespace → Namespace) :
    List Namespace → List Namespace
  | [] => [change (empty name)]
  | space :: rest =>
    if space.name = name then change space :: rest else space :: updateChild name change rest

/-- Adds a fragment to the namespace at a path, which is made if it is missing. -/
def insert (fragment : Fragment) : List String → Namespace → Namespace
  | [], node name members children => node name (members ++ [fragment]) children
  | segment :: rest, node name members children =>
    node name members (updateChild segment (insert fragment rest) children)

/-- The namespaces of a list of fragments. -/
def build (fragments : List Fragment) : Namespace :=
  (fragments.filter (!·.isAssumed)).foldl
    (fun space fragment => insert fragment fragment.path.dropLast space) (empty "")

mutual

/-- Whether there is anything inside besides members of object types, which are only written as
    part of the object type. -/
def hasDeclarations : Namespace → Bool
  | node _ members children => members.any (!·.isMember) || anyHasDeclarations children

/-- Whether one of the namespaces has declarations. -/
def anyHasDeclarations : List Namespace → Bool
  | [] => false
  | space :: rest => hasDeclarations space || anyHasDeclarations rest

end

end Namespace

end Typewright
