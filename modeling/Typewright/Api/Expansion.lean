import Typewright.Api.Operation
import Typewright.Statistics

/-!
# Expansion of references

References are announced where they are met and expanded later: in passes, each of which expands
the references that are assumed and not yet expanded, until none is left.  A reference is expanded
once.  Path items and callbacks declare nothing under their own reference, so theirs stay assumed.
-/

namespace Typewright.Api.Walk

/-! ### Starting points -/

/-- An assumed fragment for each named schema of a document. -/
def declaredSchemas (document : Json) (kind : DocumentKind) : FragmentSet :=
  ({} : FragmentSet).combine ((declaredSchemaReferences document kind).map .assumed)

/-- The fragments of a field that holds path items. -/
def visitCollection (walk : Walk) (set : FragmentSet) (collection : String) : Run FragmentSet :=
  ((walk.document.entries? collection).getD []).foldlM
    (fun set (path, item) => do
      let visited ←
        walk.visitPathItem (Pointer.join [collection, path]) path (PathItem.ofJson item)
      pure (set.extend visited)) set

/-- The fragments of all operations written in the document and, if the options say so, an
    assumed fragment for each named schema. -/
def documentFragments (walk : Walk) : Run FragmentSet := do
  let set ← collections.foldlM walk.visitCollection {}
  pure (if walk.context.options.allSchemas then set.extend (declaredSchemas walk.document .api)
    else set)

/-- The declaration at a path of the schema that stands at a reference. -/
def schemaDeclaration (walk : Walk) (site : Site) (schema : Json) : Run FragmentSet := do
  let context := walk.context.moveTo site.reference
  let context :=
    match site.path.getLast? with
    | some name => (context.named name).branded name
    | none => context
  let typing ← (Schema.ofJson schema).unitedTyping context none
  pure (typeDeclaration site typing)

/-- The statement that declares a schema document under its base name and, if the options say so,
    an assumed fragment for each named schema. -/
def rootFragments (walk : Walk) : Run FragmentSet := do
  let name := walk.space
  let context := ((walk.context.moveTo Pointer.root).named name).branded name
  let typing ← (Schema.ofJson walk.document).unitedTyping context none
  let (set, types) := ({} : FragmentSet).absorb typing
  let set := set.push (.statement Pointer.root name (TypeExpr.unionOf types))
  pure (if walk.context.options.allSchemas then set.extend (declaredSchemas walk.document .schema)
    else set)

/-! ### Expansion -/

/-- The kind of component that a path addresses; anything else is read as a schema. -/
def bucketOf : List String → String
  | [components, bucket, _] => if components = componentsKey then bucket else "schemas"
  | _ => "schemas"

/-- The fragments of what a reference addresses. -/
def expand (walk : Walk) (reference : String) : Run FragmentSet := do
  let path := Pointer.split reference
  let value ← Pointer.resolve walk.document path
  let site : Site := { reference, path := walk.context.pathOf reference }
  match bucketOf path with
  | "requestBodies" => walk.requestBodyDeclaration site reference value
  | "parameters" => walk.parameterDeclaration site reference value
  | "responses" => walk.responseDeclaration site reference value
  | "headers" => walk.headerDeclaration site value
  | "callbacks" => walk.visitCallback reference (Callback.ofJson value)
  | "pathItems" => walk.visitPathItem reference (path.getLast?.getD "") (PathItem.ofJson value)
  | _ => walk.schemaDeclaration site value

/-- Expands references one after the other. -/
def expandAll (walk : Walk) (references : List String) (set : FragmentSet) : Run FragmentSet :=
  references.foldlM
    (fun set reference => do
      let expanded ← walk.expand reference
      pure (set.extend expanded)) set

/-- The references that are assumed and not expanded yet. -/
def pending (expanded : List String) (set : FragmentSet) : List String :=
  set.assumedReferences.filter (!expanded.contains ·)

/-- Expands pending references in at most `fuel` passes; `expanded` are those expanded so far. -/
def expandPasses (walk : Walk) : Nat → List String → FragmentSet → Statistics →
    Run (FragmentSet × Statistics)
  | fuel, expanded, set, stats =>
    match pending expanded set with
    | [] => pure (set, stats)
    | reference :: rest =>
      match fuel with
      | 0 => pure (set, stats)
      | fuel + 1 => do
        let references := reference :: rest
        let set ← walk.expandAll references set
        expandPasses walk fuel (expanded ++ references) set
          (stats.recordPass references.length)

/-- How many passes there can be: each expands a reference that no earlier one did, and every
    reference is assumed at the start or written in the document. -/
def passBound (walk : Walk) (set : FragmentSet) : Nat :=
  set.assumedReferences.length + (Pointer.references walk.document).length

/-- Expands references until none is pending. -/
def expandFixedPoint (walk : Walk) (set : FragmentSet) (stats : Statistics) :
    Run (FragmentSet × Statistics) :=
  walk.expandPasses (walk.passBound set) [] set stats

end Typewright.Api.Walk
