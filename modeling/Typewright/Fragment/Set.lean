import Typewright.Fragment.Basic
import Typewright.Warning

/-!
# Sets of fragments

A store keeps at most one fragment for a reference.  A concrete fragment replaces whatever is
stored under its reference and goes to the end; an assumed one is stored only where nothing is.
A `FragmentSet` is a store with the warnings raised and the operations visited on the way.
-/

namespace Typewright

namespace Fragment

/-- Whether a fragment is stored under the reference. -/
def isStored (store : List Fragment) (reference : String) : Bool :=
  store.any (·.reference == reference)

/-- Stores a fragment. -/
def put (store : List Fragment) (fragment : Fragment) : List Fragment :=
  if fragment.isAssumed then
    if isStored store fragment.reference then store else store ++ [fragment]
  else store.filter (·.reference != fragment.reference) ++ [fragment]

/-- Stores fragments one by one. -/
def combine (store incoming : List Fragment) : List Fragment :=
  incoming.foldl put store

/-- The fragments of a kind. -/
def ofKind (kind : Kind) (store : List Fragment) : List Fragment :=
  store.filter (·.kind == kind)

/-- The references that must still be expanded. -/
def assumedReferences (store : List Fragment) : List String :=
  (ofKind .assumed store).map reference

end Fragment

/-- Fragments with the warnings and the operations met while making them. -/
structure FragmentSet where
  fragments : List Fragment := []
  warnings : List Warning := []
  /-- The identifiers of the operations visited. -/
  operations : List String := []
deriving Repr

/-- The types a schema denotes, with the fragments and warnings that came up. -/
structure Typing where
  types : List TypeExpr := []
  emitted : FragmentSet := {}
deriving Repr

namespace FragmentSet

/-- Stores a fragment. -/
def push (set : FragmentSet) (fragment : Fragment) : FragmentSet :=
  { set with fragments := Fragment.put set.fragments fragment }

/-- Stores fragments one by one. -/
def combine (set : FragmentSet) (fragments : List Fragment) : FragmentSet :=
  { set with fragments := Fragment.combine set.fragments fragments }

/-- Adds a warning. -/
def warn (set : FragmentSet) (warning : Warning) : FragmentSet :=
  { set with warnings := set.warnings ++ [warning] }

/-- Adds another set: its fragments are stored one by one, its operations unless they are there. -/
def extend (set other : FragmentSet) : FragmentSet :=
  { fragments := Fragment.combine set.fragments other.fragments
    warnings := set.warnings ++ other.warnings
    operations := Text.insertAllNew set.operations other.operations }

/-- Adds what a schema's types brought up and hands on the types. -/
def absorb (set : FragmentSet) (typing : Typing) : FragmentSet × List TypeExpr :=
  (set.extend typing.emitted, typing.types)

/-- The references that must still be expanded. -/
def assumedReferences (set : FragmentSet) : List String :=
  Fragment.assumedReferences set.fragments

end FragmentSet

namespace Typing

/-- A single type. -/
def ofType (type : TypeExpr) : Typing :=
  { types := [type] }

/-- Alternative types. -/
def ofTypes (types : List TypeExpr) : Typing :=
  { types }

/-- The typing with one more fragment. -/
def withFragment (typing : Typing) (fragment : Fragment) : Typing :=
  { typing with emitted := typing.emitted.push fragment }

/-- The typing with one more warning. -/
def withWarning (typing : Typing) (warning : Warning) : Typing :=
  { typing with emitted := typing.emitted.warn warning }

/-- The alternatives as one type. -/
def unionType (typing : Typing) : TypeExpr :=
  TypeExpr.unionOf typing.types

/-- The typing with its alternatives made one type. -/
def united (typing : Typing) : Typing :=
  { typing with types := [typing.unionType] }

end Typing

end Typewright
