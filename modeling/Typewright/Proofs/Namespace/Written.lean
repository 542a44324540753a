import Typewright.Namespace.Printer
import Typewright.Proofs.Namespace.Tree
import Typewright.Proofs.TypeExpr.WellFormed

/-!
# What is written of a fragment

The text of a declaration, said by the fragments alone: an alias of its type, an enum with its
members, or the object type of the members that are stored under the path of the declaration
(`Declares`).  Object types that are gathered from members may hold others, so the relation for
them is an inductive one (`Gathers`).  The namespaces of the fragments give the same text
(`declares_declarationText`).
-/

namespace Typewright

/-- The name of what a path leads to. -/
def lastName (path : List String) : String :=
  path.getLast?.getD ""

namespace Namespace

/-! ### The texts -/

/-- Two blanks for each block that is open. -/
def margin : Nat → String
  | 0 => ""
  | depth + 1 => margin depth ++ "  "

/-- An alias of a type. -/
def aliasText (name type : String) : String :=
  "export type " ++ name ++ " = " ++ type ++ ";"

/-- An enum with one member on a line. -/
def enumBlock (declaration : EnumDeclaration) (depth : Nat) : String :=
  "export enum " ++ declaration.name ++ " \x7b\n"
    ++ "\n".intercalate (declaration.members.map fun member =>
      margin (depth + 1) ++ member.name ++ " = " ++ Text.quote member.value ++ ",")
    ++ "\n" ++ margin depth ++ "\x7d"

/-- A member on a line of an object type. -/
def memberLine (depth : Nat) (path : List String) (optional : Bool) (type : String) : String :=
  margin (depth + 1) ++ Naming.propertyKey (lastName path) ++ (if optional then "?" else "") ++ ": "
    ++ type ++ ";"

/-- The members of the object type that is gathered at a path. -/
def objectMembers (fragments : List Fragment) (path : List String) : List Fragment :=
  fragments.filter fun fragment => fragment.isMember && fragment.path.dropLast == path

mutual

/-- The text of the object type that is gathered at a path. -/
inductive Gathers (fragments : List Fragment) : List String → Nat → String → Prop where
  | empty {path : List String} {depth : Nat} (h : objectMembers fragments path = []) :
      Gathers fragments path depth "\x7b\x7d"
  | block {path lines : List String} {depth : Nat} (h : objectMembers fragments path ≠ [])
      (hlines : MemberLines fragments depth (objectMembers fragments path) lines) :
      Gathers fragments path depth
        ("\x7b\n" ++ "\n".intercalate lines ++ "\n" ++ margin depth ++ "\x7d")

/-- One line for each member, in the order of the members. -/
inductive MemberLines (fragments : List Fragment) : Nat → List Fragment → List String → Prop where
  | nil {depth : Nat} : MemberLines fragments depth [] []
  | type {depth : Nat} {rest : List Fragment} {lines : List String} (reference : String)
      (path : List String) (optional : Bool) (type : TypeExpr)
      (hrest : MemberLines fragments depth rest lines) :
      MemberLines fragments depth (.member reference path optional (.type type) :: rest)
        (memberLine depth path optional type.text :: lines)
  | redirect {depth : Nat} {rest : List Fragment} {lines : List String} (reference : String)
      (path : List String) (optional : Bool) (redirect : Redirect)
      (hrest : MemberLines fragments depth rest lines) :
      MemberLines fragments depth (.member reference path optional (.redirect redirect) :: rest)
        (memberLine depth path optional (".".intercalate redirect.target) :: lines)
  /-- The members of the object type are stored under the name of the member. -/
  | gathered {depth : Nat} {rest : List Fragment} {lines : List String} (reference : String)
      (path : List String) (optional : Bool) {type : String}
      (htype : Gathers fragments (path.dropLast ++ [lastName path]) (depth + 1) type)
      (hrest : MemberLines fragments depth rest lines) :
      MemberLines fragments depth (.member reference path optional .gathered :: rest)
        (memberLine depth path optional type :: lines)

end

/-- The text of a declaration inside as many blocks as the depth says. -/
inductive Declares (fragments : List Fragment) (depth : Nat) : Fragment → String → Prop where
  | statement (reference name : String) (type : TypeExpr) :
      Declares fragments depth (.statement reference name type) (aliasText name type.text)
  | type (reference : String) (path : List String) (type : TypeExpr) :
      Declares fragments depth (.declaration reference path (.type type))
        (aliasText (lastName path) type.text)
  | enum (reference : String) (path : List String) (declaration : EnumDeclaration) :
      Declares fragments depth (.declaration reference path (.enum declaration))
        (enumBlock declaration depth)
  | redirect (reference : String) (path : List String) (redirect : Redirect) :
      Declares fragments depth (.declaration reference path (.redirect redirect))
        (aliasText (lastName path) (".".intercalate redirect.target))
  | gathered (reference : String) (path : List String) {type : String}
      (htype : Gathers fragments (path.dropLast ++ [lastName path]) depth type) :
      Declares fragments depth (.declaration reference path .gathered)
        (aliasText (lastName path) type)

theorem indentation_eq_margin (depth : Nat) : indentation depth = margin depth := by
  induction depth with
  | zero => rfl
  | succ depth ih =>
    have hblanks : List.replicate (2 * depth + 2) ' ' = List.replicate (2 * depth) ' ' ++ [' ', ' '] :=
      List.replicate_append_replicate.symm
    rw [margin, ← ih, indentation, indentation, Nat.mul_succ, hblanks, String.ofList_append]

/-- A redirect is written as the segments of its target, with points between them. -/
theorem text_type_redirect (redirect : Redirect) :
    redirect.type.text = ".".intercalate redirect.target := by
  have hdot : ".".toList = ['.'] := rfl
  apply String.toList_inj.1
  rw [String.toList_intercalate, hdot, Redirect.type, TypeExpr.text, String.toList_ofList,
    TypeExpr.toChars_reference]

theorem memberText_member (nested : String → Nat → String) (depth : Nat) (reference : String)
    (path : List String) (optional : Bool) (body : MemberBody) :
    memberText nested depth (.member reference path optional body) =
      some (memberLine depth path optional
        (match body with
          | .type type => type.text
          | .redirect redirect => ".".intercalate redirect.target
          | .gathered => nested (lastName path) (depth + 1))) := by
  unfold memberText memberLine
  rw [indentation_eq_margin]
  cases body with
  | redirect redirect =>
    show some (_ ++ redirect.type.text ++ ";") = _
    rw [text_type_redirect]
    rfl
  | type | gathered => rfl

theorem enumText_eq_enumBlock (declaration : EnumDeclaration) (depth : Nat) :
    enumText declaration depth = enumBlock declaration depth := by
  unfold enumText enumBlock
  simp only [indentation_eq_margin]

/-! ### Gathered object types -/

section Gathered

variable {fragments : List Fragment}

/-- There are lines where there are members. -/
theorem isEmpty_of_memberLines {depth : Nat} {members : List Fragment} {lines : List String}
    (h : MemberLines fragments depth members lines) : lines.isEmpty = members.isEmpty := by
  cases h <;> rfl

/-- Lines of the members of an object type make up its text. -/
theorem gathers_block {path lines : List String} {depth : Nat}
    (h : MemberLines fragments depth (objectMembers fragments path) lines) :
    Gathers fragments path depth (block lines depth) := by
  have hempty := isEmpty_of_memberLines h
  unfold block
  rw [hempty, indentation_eq_margin]
  split
  · next hnone => exact .empty (List.isEmpty_iff.1 hnone)
  · next hsome => exact .block (fun hnone => hsome (List.isEmpty_iff.2 hnone)) h

/-- If the object types that are nested in members are written, so are the members that stand at
    a path. -/
theorem memberLines_filterMap {nested : String → Nat → String} {path : List String} {depth : Nat}
    (hnested : ∀ name, Gathers fragments (path ++ [name]) (depth + 1) (nested name (depth + 1)))
    {members : List Fragment} (hpath : ∀ fragment ∈ members, fragment.path.dropLast = path) :
    MemberLines fragments depth (members.filter Fragment.isMember)
      (members.filterMap (memberText nested depth)) := by
  induction members with
  | nil => exact .nil
  | cons fragment rest ih =>
    have hrest := ih fun other hother => hpath other (List.mem_cons_of_mem _ hother)
    cases fragment with
    | statement | declaration | assumed => exact hrest
    | member reference place optional body =>
      have hplace : place.dropLast = path := hpath _ List.mem_cons_self
      rw [List.filter_cons_of_pos rfl, List.filterMap_cons_some (memberText_member ..)]
      cases body with
      | type type => exact .type reference place optional type hrest
      | redirect redirect => exact .redirect reference place optional redirect hrest
      -- The member's own members lie below the path that all these members share.
      | gathered => exact .gathered reference place optional (hplace ▸ hnested (lastName place)) hrest

/-- Nothing is gathered where there is no namespace. -/
theorem objectMembers_eq_nil {path : List String} (h : (build fragments).find? path = none) :
    objectMembers fragments path = [] := by
  have hneeded : isNeeded fragments path = false := by
    rw [← find?_build_isSome, h]
    rfl
  have hnone := List.filter_eq_nil_iff.1 (filter_isMemberAt_eq_nil hneeded)
  refine List.filter_eq_nil_iff.2 fun fragment hfragment hmember => hnone fragment hfragment ?_
  cases fragment <;> simp_all [Fragment.isMember, Fragment.isAssumed, isMemberAt, Fragment.parentPath]

/-- The members of an object type are those in the namespace of its path. -/
theorem objectMembers_eq_filter {path : List String} {space : Namespace}
    (h : (build fragments).find? path = some space) :
    objectMembers fragments path = space.members.filter Fragment.isMember := by
  rw [members_of_find?_build h, List.filter_filter]
  refine List.filter_congr fun fragment _ => ?_
  cases fragment <;> rfl

/-- What is gathered under a name is gathered in the child of that name. -/
theorem lookup_gatheredTypes (children : List Namespace) (name : String) :
    (gatheredTypes children).lookup name = (children.find? (·.name == name)).map gathered := by
  induction children with
  | nil => rfl
  | cons space rest ih =>
    rw [gatheredTypes, List.lookup_cons, List.find?_cons, ih, BEq.comm]
    cases space.name == name <;> rfl

/-- The object types that are gathered next to a namespace, if those in the children are right. -/
theorem gathers_gatheredIn {path : List String} {space : Namespace}
    (hfound : (build fragments).find? path = some space)
    (hchildren : ∀ inner ∈ space.children, ∀ depth,
      Gathers fragments (path ++ [inner.name]) depth (gathered inner depth))
    (name : String) (depth : Nat) :
    Gathers fragments (path ++ [name]) depth (gatheredIn (gatheredTypes space.children) name depth) := by
  have hchild : (build fragments).find? (path ++ [name]) = space.children.find? (·.name == name) :=
    find?_concat hfound name
  rw [gatheredIn, lookup_gatheredTypes]
  -- Without a child of the name no fragment stands there, so the object type has no members.
  cases hinner : space.children.find? (·.name == name) with
  | none => exact .empty (objectMembers_eq_nil (hchild.trans hinner))
  | some inner =>
    have hname : inner.name = name := by simpa using List.find?_some hinner
    have hgathers := hchildren inner (List.mem_of_find?_eq_some hinner) depth
    rwa [hname] at hgathers

mutual

/-- The members in a namespace form the object type that is gathered at its path. -/
theorem gathers_gathered (space : Namespace) {path : List String}
    (hfound : (build fragments).find? path = some space) (depth : Nat) :
    Gathers fragments path depth (gathered space depth) := by
  obtain ⟨name, members, children⟩ := space
  have hchildren := gathers_of_mem_children children path fun inner hinner =>
    find?_build_child hfound hinner
  rw [gathered]
  beta_reduce
  apply gathers_block
  rw [objectMembers_eq_filter hfound]
  exact memberLines_filterMap (fun key => gathers_gatheredIn hfound hchildren key (depth + 1))
    fun fragment hfragment => path_of_mem_members hfound hfragment
termination_by structural space

theorem gathers_of_mem_children (children : List Namespace) (path : List String)
    (hfound : ∀ inner ∈ children, (build fragments).find? (path ++ [inner.name]) = some inner) :
    ∀ inner ∈ children, ∀ depth,
      Gathers fragments (path ++ [inner.name]) depth (gathered inner depth) := by
  cases children with
  | nil => exact fun inner hinner => absurd hinner List.not_mem_nil
  | cons space rest =>
    intro inner hinner depth
    rcases List.mem_cons.1 hinner with heq | hinner
    · rw [heq]
      exact gathers_gathered space (hfound space List.mem_cons_self) depth
    · exact gathers_of_mem_children rest path
        (fun other hother => hfound other (List.mem_cons_of_mem _ hother)) inner hinner depth
termination_by structural children

end

/-! ### Declarations -/

/-- What is gathered under a name next to the members of a namespace. -/
theorem gathers_child {path : List String} {space : Namespace}
    (hfound : (build fragments).find? path = some space) (name : String) (depth : Nat) :
    Gathers fragments (path ++ [name]) depth (gatheredIn (gatheredTypes space.children) name depth) := by
  refine gathers_gatheredIn hfound (fun inner hinner => ?_) name depth
  exact gathers_gathered inner (find?_build_child hfound hinner)

/-- What a namespace writes of a fragment is the text of the fragment's declaration. -/
theorem declares_declarationText {path : List String} {space : Namespace}
    (hfound : (build fragments).find? path = some space) {fragment : Fragment}
    (hfragment : fragment ∈ space.members) {depth : Nat} {text : String}
    (htext : declarationText space.children depth fragment = some text) :
    Declares fragments depth fragment text := by
  -- Only a gathered object type asks where the fragment stands.
  have hpath := path_of_mem_members hfound hfragment
  cases fragment with
  | member | assumed => exact absurd htext (by simp [declarationText])
  | statement reference name type =>
    obtain rfl := Option.some.inj htext
    exact .statement reference name type
  | declaration reference place body =>
    cases body with
    | type type =>
      obtain rfl := Option.some.inj htext
      exact .type reference place type
    | enum declaration =>
      obtain rfl := (enumText_eq_enumBlock declaration depth).symm.trans (Option.some.inj htext)
      exact .enum reference place declaration
    | redirect redirect =>
      have haliased : aliasText (lastName place) redirect.type.text = text := Option.some.inj htext
      rw [text_type_redirect] at haliased
      obtain rfl := haliased
      exact .redirect reference place redirect
    | gathered =>
      obtain rfl := Option.some.inj htext
      refine .gathered reference place ?_
      rw [show place.dropLast = path from hpath]
      exact gathers_child hfound (lastName place) depth

end Gathered

end Namespace

end Typewright
