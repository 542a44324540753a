import Typewright.Api.PathItem
import Typewright.Naming
import Typewright.Options

/-!
# Documents

What a document declares: its components, its named schemas, its operations, and the texts that
describe it.
-/

namespace Typewright.Api

/-! ### Components -/

/-- The field of a document that holds its components. -/
def componentsKey : String :=
  "components"

/-- The kinds of components. -/
def componentBuckets : List String :=
  ["schemas", "requestBodies", "parameters", "responses", "headers", "callbacks", "pathItems"]

/-- The fields with an object under that name: a missing field is added at the end, and a field
    that is no object is made an empty one. -/
def ensureObject (fields : List (String × Json)) (name : String) : List (String × Json) :=
  match fields.lookup name with
  | some (.object _) => fields
  | _ => Json.setField name (.object []) fields

/-- The components with an object for each kind. -/
def normalizeComponents (components : Json) : Json :=
  .object (componentBuckets.foldl ensureObject (components.asObject?.getD []))

/-- A document with an object for each kind of components; a document that is no object is left
    alone. -/
def normalize (document : Json) : Json :=
  match document with
  | .object fields =>
    let components := (fields.lookup componentsKey).getD (.object [])
    .object (Json.setField componentsKey (normalizeComponents components) fields)
  | _ => document

/-! ### Declared schemas -/

/-- The paths of the objects that hold the named schemas of a document. -/
def schemaBuckets : DocumentKind → List (List String)
  | .api => [[componentsKey, "schemas"]]
  | .schema => [["$defs"], ["definitions"]]

/-- The names in the object at a path. -/
def namesAt (document : Json) (path : List String) : List String :=
  match Pointer.resolve document path with
  | .ok value => (value.asObject?.getD []).map (·.1)
  | .error _ => []

/-- The references to the named schemas of a document, in document order. -/
def declaredSchemaReferences (document : Json) (kind : DocumentKind) : List String :=
  (schemaBuckets kind).flatMap fun path =>
    (namesAt document path).map fun name => Pointer.join (path ++ [name])

/-- The identifiers of the named schemas of a document. -/
def declaredSchemaNames (document : Json) (kind : DocumentKind) : List String :=
  (declaredSchemaReferences document kind).filterMap fun reference =>
    (Pointer.split reference).getLast?.map Naming.identifier

/-! ### Operations -/

/-- The fields of a document that hold path items. -/
def collections : List String :=
  ["paths", "webhooks"]

/-- An identifier made from the method and the segments of the path. -/
def synthesizedId (method : Method) (path : String) : String :=
  let segments := ((Text.splitOnChar '/' path.toList).filter (!·.isEmpty)).map String.ofList
  String.join ((method.name :: segments).map Naming.identifier)

/-- An operation of a document. -/
structure OperationEntry where
  id : String
  method : Method
  path : String
  /-- Whether the identifier was made from the method and the path. -/
  synthesized : Bool
deriving DecidableEq, Repr

/-- The entry of an operation at a path. -/
def OperationEntry.ofOperation (path : String) (operation : MethodOperation) : OperationEntry :=
  let declared := operation.operation.facts.operationId
  { id := declared.getD (synthesizedId operation.method path)
    method := operation.method
    path
    synthesized := declared.isNone }

/-- The operations written in a document, in document order. -/
def operationEntries (document : Json) : List OperationEntry :=
  collections.flatMap fun collection =>
    ((document.entries? collection).getD []).flatMap fun (path, item) =>
      (PathItem.ofJson item).operations.map (OperationEntry.ofOperation path)

/-! ### Description -/

/-- The texts that describe a document. -/
structure Metadata where
  kind : DocumentKind
  title : Option String
  version : Option String
  description : Option String
deriving DecidableEq, Repr

/-- The description of a document: under `info` if it describes an interface, else at its root. -/
def Metadata.ofDocument (document : Json) : Metadata :=
  let kind := DocumentKind.ofDocument document
  let source :=
    match kind with
    | .api => (document.field? "info").getD .null
    | .schema => document
  { kind
    title := source.string? "title"
    version := source.string? "version"
    description := source.string? "description" }

end Typewright.Api
