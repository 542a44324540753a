import Typewright.Api.Declaration
import Typewright.Api.Document

/-!
# Declarations of operations

Each operation is declared in a namespace of its own.  `Input` gathers one member for each
parameter and one for the request body; `Output` is the union of the responses.
-/

namespace Typewright.Api

/-! ### Parameters of an operation -/

/-- What tells the parameters of an operation apart: the name and the place. -/
structure ParameterKey where
  name : String
  place : String
deriving DecidableEq, Repr

/-- The key of a parameter value. -/
def ParameterKey.ofJson (parameter : Json) : ParameterKey where
  name := (parameter.string? "name").getD ""
  place := (parameter.string? "in").getD ""

/-- A value with its location. -/
structure Located where
  location : String
  value : Json

/-- The values with the locations that they have as items of an array. -/
def Located.items (location : String) (values : List Json) : List Located :=
  values.mapIdx fun index value =>
    { location := Pointer.child location (toString index), value }

/-- The name of a new member.  A name that is taken gets the place of the parameter added, and a
    number if that is taken too. -/
def uniqueField (taken : List String) (field place : String) : String :=
  if taken.contains field then Naming.fresh taken (field ++ Naming.identifier place) else field

namespace Walk

/-- The key of a parameter, or of what it refers to; a reference that leads nowhere is read as it
    stands. -/
def keyOf (walk : Walk) (parameter : Json) : ParameterKey :=
  match Pointer.follow walk.document parameter with
  | .ok value => ParameterKey.ofJson value
  | .error _ => ParameterKey.ofJson parameter

/-- The parameters of an operation: first the shared ones whose key no own parameter has, then its
    own. -/
def effectiveParameters (walk : Walk) (shared own : List Located) : List Located :=
  let keys := own.map (walk.keyOf ·.value)
  shared.filter (fun parameter => !keys.contains (walk.keyOf parameter.value)) ++ own

/-! ### Input -/

/-- The wished name of a parameter's member. -/
def fieldOf (walk : Walk) (name : String) : String :=
  if walk.context.options.camelizeInputs then Naming.fieldName name else name

/-- The set after a value that may be a reference object has been declared at `site`, and the
    redirect to its declaration; a reference object is not declared again. -/
def declareOrRedirect (walk : Walk) (set : FragmentSet) (site : Site) (value : Json)
    (declaration : Run FragmentSet) : Run (FragmentSet × Redirect) :=
  match Pointer.target? value with
  | some reference => pure (set.push (.assumed reference), walk.redirectTo reference)
  | none => do
    let declared ← declaration
    pure (set.extend declared, site.redirect)

/-- The members for the parameters of an operation; `taken` are the member names given so far. -/
def parameterMembers (walk : Walk) (operation : Site) :
    List Located → List String → FragmentSet → Run FragmentSet
  | [], _, set => pure set
  | parameter :: rest, taken, set => do
    let resolved ← Pointer.follow walk.document parameter.value
    let key := ParameterKey.ofJson resolved
    let field := uniqueField taken (walk.fieldOf key.name) key.place
    let optional := !(resolved.flag "required" || key.place == "path")
    let site := (operation.child "parameters" "Parameters").child (key.place ++ "." ++ key.name)
      (Naming.identifier key.name)
    let (set, redirect) ← walk.declareOrRedirect set site parameter.value
      (walk.parameterDeclaration site parameter.location parameter.value)
    let member := ((operation.child "input" "Input").child field field).declareMember optional
      (.redirect redirect)
    walk.parameterMembers operation rest (field :: taken) (set.push member)

/-- The member for the request body of an operation, if it has one. -/
def bodyMember (walk : Walk) (operation : Site) (location : String) (set : FragmentSet) :
    Option Json → Run FragmentSet
  | none => pure set
  | some body => do
    let required ← walk.isRequired body
    let site := operation.child "requestBody" "Body"
    let (set, redirect) ← walk.declareOrRedirect set site body
      (walk.requestBodyDeclaration site (Pointer.child location "requestBody") body)
    let member := (operation.child "input" "Input").child "body" "body"
    pure (set.push (member.declareMember (!required) (.redirect redirect)))

/-- The declaration `Input` of an operation. -/
def operationInput (walk : Walk) (operation : Site) (location : String) (facts : OperationFacts)
    (shared : List Located) : Run FragmentSet := do
  let own := Located.items (Pointer.child location "parameters") facts.parameters
  let taken := if facts.requestBody.isSome then ["body"] else []
  let set := ({} : FragmentSet).push ((operation.child "input" "Input").declare .gathered)
  let set ← walk.parameterMembers operation (walk.effectiveParameters shared own) taken set
  walk.bodyMember operation location set facts.requestBody

/-! ### Output -/

/-- The type of a status: its number, or any number. -/
def statusType (status : String) : TypeExpr :=
  match Text.word? status with
  | some n => .literal (.number (.integer n))
  | none => .number

/-- The declaration of the response of one status. -/
def statusDeclaration (walk : Walk) (site : Site) (location status : String) (response : Json)
    (set : FragmentSet) : Run FragmentSet :=
  match Pointer.target? response with
  | some reference =>
    let status : TypeExpr := .object [{ name := "status", type := statusType status }] none
    let type := TypeExpr.intersectionOf [status, .reference (walk.context.pathOf reference)]
    pure ((set.push (.assumed reference)).push (site.declare (.type type)))
  | none => do
    let declared ← walk.responseDeclaration site location response
    pure ((set.extend declared).push
      ((site.child "status" "status").declareMember false (.type (statusType status))))

/-- The declarations of the responses that the options keep, and the types of these. -/
def responseDeclarations (walk : Walk) (operation : Site) (location operationId : String) :
    List (String × Json) → FragmentSet → List TypeExpr → Run (FragmentSet × List TypeExpr)
  | [], set, outputs => pure (set, outputs)
  | (status, response) :: rest, set, outputs =>
    if walk.context.options.keepsStatus status then do
      let site := (operation.child "responses" "Responses").child status
        (Naming.identifier status)
      let set ← walk.statusDeclaration site (Pointer.descend location ["responses", status]) status
        response set
      walk.responseDeclarations operation location operationId rest set
        (outputs ++ [.reference site.path])
    else
      walk.responseDeclarations operation location operationId rest
        (set.warn (.responseFiltered operationId status)) outputs

/-- The declaration `Output` of an operation, after those of its responses. -/
def operationOutput (walk : Walk) (operation : Site) (location operationId : String)
    (facts : OperationFacts) : Run FragmentSet := do
  let (set, outputs) ←
    walk.responseDeclarations operation location operationId facts.responses {} []
  pure (set.push ((operation.child "output" "Output").declare (.type (TypeExpr.unionOf outputs))))

/-! ### Operations and path items -/

/-- The identifier of an operation, with a warning if it was made from the method and the path. -/
def operationId (walk : Walk) (method : Method) (path : String) (facts : OperationFacts) :
    Except Failure (String × FragmentSet) :=
  match facts.operationId with
  | some id => .ok (id, { operations := [id] })
  | none =>
    if walk.context.options.requireCleanApi then
      .error (.operationIdRequired method.upperName path)
    else
      let id := synthesizedId method path
      .ok (id,
        { warnings := [.operationIdSynthesized method.upperName path id], operations := [id] })

/-- Where an operation is declared. -/
def operationSite (walk : Walk) (id : String) : Site :=
  { reference := Pointer.join ["operations", id], path := [walk.space, Naming.identifier id] }

mutual

/-- The fragments of a path item; a reference object is announced only. -/
def visitPathItem (walk : Walk) (location path : String) : PathItem → Run FragmentSet
  | .mk reference parameters operations =>
    match reference with
    | some reference => pure (({} : FragmentSet).push (.assumed reference))
    | none =>
      let shared := Located.items (Pointer.child location "parameters") parameters
      visitOperations walk location path shared operations {}

/-- The fragments of the operations of a path item. -/
def visitOperations (walk : Walk) (location path : String) (shared : List Located) :
    List MethodOperation → FragmentSet → Run FragmentSet
  | [], set => pure set
  | .mk method operation :: rest, set => do
    let visited ←
      visitOperation walk (Pointer.child location method.name) method path shared operation
    visitOperations walk location path shared rest (set.extend visited)

/-- The fragments of an operation and of its callbacks. -/
def visitOperation (walk : Walk) (location : String) (method : Method) (path : String)
    (shared : List Located) : Operation → Run FragmentSet
  | .mk facts callbacks => do
    let (id, set) ← walk.operationId method path facts
    let site := walk.operationSite id
    let input ← walk.operationInput site location facts shared
    let output ← walk.operationOutput site location id facts
    visitCallbacks walk (Pointer.child location "callbacks") callbacks
      ((set.extend input).extend output)

/-- The fragments of the callbacks of an operation. -/
def visitCallbacks (walk : Walk) (location : String) :
    List NamedCallback → FragmentSet → Run FragmentSet
  | [], set => pure set
  | .mk name callback :: rest, set => do
    let visited ← visitCallback walk (Pointer.child location name) callback
    visitCallbacks walk location rest (set.extend visited)

/-- The fragments of a callback; a reference object is announced only. -/
def visitCallback (walk : Walk) (location : String) : Callback → Run FragmentSet
  | .reference reference => pure (({} : FragmentSet).push (.assumed reference))
  | .items items => visitItems walk location items {}

/-- The fragments of the path items of a callback. -/
def visitItems (walk : Walk) (location : String) : List NamedItem → FragmentSet → Run FragmentSet
  | [], set => pure set
  | .mk expression item :: rest, set => do
    let visited ← visitPathItem walk (Pointer.child location expression) expression item
    visitItems walk location rest (set.extend visited)

end

end Walk

end Typewright.Api
