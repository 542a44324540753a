import Typewright.TypeExpr.Basic

/-!
# Fragments

A fragment is one piece of the output, known by its reference.  A concrete fragment declares
something; an assumed one stands for a reference that has been mentioned and must still be
expanded.
-/

namespace Typewright

/-- A member of an enum declaration. -/
structure EnumMember where
  name : String
  value : String
deriving DecidableEq, Repr

/-- An enum declaration. -/
structure EnumDeclaration where
  name : String
  members : List EnumMember
deriving DecidableEq, Repr

/-- The declaration of another reference, with the path it is declared under. -/
structure Redirect where
  reference : String
  target : List String
deriving DecidableEq, Repr

namespace Redirect

/-- The type a redirect stands for. -/
def type (redirect : Redirect) : TypeExpr :=
  .reference redirect.target

end Redirect

/-- What a declaration declares. -/
inductive DeclarationBody where
  | type (type : TypeExpr)
  | enum (declaration : EnumDeclaration)
  | redirect (redirect : Redirect)
  /-- The object type of the members stored under the declaration's own path. -/
  | gathered
deriving Repr

/-- The type of a member. -/
inductive MemberBody where
  | type (type : TypeExpr)
  | redirect (redirect : Redirect)
  /-- The object type of the members stored under the member's own path. -/
  | gathered
deriving Repr

/-- A piece of the output. -/
inductive Fragment where
  /-- A declaration at the top. -/
  | statement (reference name : String) (type : TypeExpr)
  /-- A declaration in a namespace; the last segment of the path is its name. -/
  | declaration (reference : String) (path : List String) (body : DeclarationBody)
  /-- A member of the object type that the path without its last segment names. -/
  | member (reference : String) (path : List String) (optional : Bool) (body : MemberBody)
  /-- A reference that must still be expanded. -/
  | assumed (reference : String)
deriving Repr

namespace Fragment

/-- The four kinds of fragments. -/
inductive Kind where
  | statement
  | declaration
  | member
  | assumed
deriving DecidableEq, Repr

namespace Kind

/-- The name of a kind. -/
def name : Kind → String
  | statement => "statement"
  | declaration => "declaration"
  | member => "member"
  | assumed => "assumed"

/-- The kind of that name. -/
def ofName? : String → Option Kind
  | "statement" => some statement
  | "declaration" => some declaration
  | "member" => some member
  | "assumed" => some assumed
  | _ => none

end Kind

/-- The kind of a fragment. -/
def kind : Fragment → Kind
  | statement .. => .statement
  | declaration .. => .declaration
  | member .. => .member
  | assumed _ => .assumed

/-- The reference a fragment is known by. -/
def reference : Fragment → String
  | statement r .. => r
  | declaration r .. => r
  | member r .. => r
  | assumed r => r

/-- The path of a fragment; statements and assumed fragments have none. -/
def path : Fragment → List String
  | declaration _ p _ => p
  | member _ p .. => p
  | _ => []

/-- Whether the fragment must still be expanded. -/
def isAssumed : Fragment → Bool
  | assumed _ => true
  | _ => false

/-- Whether the fragment is a member of an object type. -/
def isMember : Fragment → Bool
  | member .. => true
  | _ => false

end Fragment

end Typewright
