import Typewright.Pointer

/-!
# Path items and operations

A path item holds the operations of a path, at most one for each method, and an operation may
hold callbacks, which hold path items again.  They are read off a document value once; values of
another shape count as path items without operations.
-/

namespace Typewright.Api

/-- The methods of operations. -/
inductive Method where
  | get
  | put
  | post
  | delete
  | options
  | head
  | patch
  | trace
deriving DecidableEq, Repr

namespace Method

/-- All methods, in the order in which operations are visited. -/
def all : List Method :=
  [get, put, post, delete, options, head, patch, trace]

/-- The name of a method in a document. -/
def name : Method → String
  | get => "get"
  | put => "put"
  | post => "post"
  | delete => "delete"
  | options => "options"
  | head => "head"
  | patch => "patch"
  | trace => "trace"

/-- The name of a method in upper case. -/
def upperName : Method → String
  | get => "GET"
  | put => "PUT"
  | post => "POST"
  | delete => "DELETE"
  | options => "OPTIONS"
  | head => "HEAD"
  | patch => "PATCH"
  | trace => "TRACE"

/-- The method of that name. -/
def ofName? (s : String) : Option Method :=
  all.find? (·.name == s)

end Method

/-- The parts of an operation that hold no path item. -/
structure OperationFacts where
  /-- The operation's own identifier, unless it is blank. -/
  operationId : Option String := none
  parameters : List Json := []
  requestBody : Option Json := none
  /-- The responses by status. -/
  responses : List (String × Json) := []

/-- The parts of an operation value that hold no path item. -/
def OperationFacts.ofJson (value : Json) : OperationFacts where
  operationId := (value.string? "operationId").filter (!Text.isBlankText ·)
  parameters := (value.items? "parameters").getD []
  requestBody := value.field? "requestBody"
  responses := (value.entries? "responses").getD []

mutual

/-- A path item. -/
inductive PathItem where
  /-- The reference, if this is a reference object; the parameters that all operations share; the
      operations, in the order of the methods. -/
  | mk (reference : Option String) (parameters : List Json) (operations : List MethodOperation)

/-- An operation under its method. -/
inductive MethodOperation where
  | mk (method : Method) (operation : Operation)

/-- An operation. -/
inductive Operation where
  | mk (facts : OperationFacts) (callbacks : List NamedCallback)

/-- A callback under its name. -/
inductive NamedCallback where
  | mk (name : String) (callback : Callback)

/-- A callback: a reference, or path items by expression. -/
inductive Callback where
  | reference (reference : String)
  | items (items : List NamedItem)

/-- A path item under its expression. -/
inductive NamedItem where
  | mk (expression : String) (item : PathItem)

end

namespace MethodOperation

/-- The method. -/
def method : MethodOperation → Method
  | mk method _ => method

/-- The operation. -/
def operation : MethodOperation → Operation
  | mk _ operation => operation

/-- The operations in the order of the methods, the first of each method. -/
def inOrder (operations : List MethodOperation) : List MethodOperation :=
  Method.all.filterMap fun method => operations.find? (·.method == method)

end MethodOperation

namespace Operation

/-- The parts that hold no path item. -/
def facts : Operation → OperationFacts
  | mk facts _ => facts

end Operation

mutual

/-- The path item that a value is. -/
def PathItem.ofJson : Json → PathItem
  | .object fields =>
    .mk (Pointer.target? (.object fields)) ((Json.items? (.object fields) "parameters").getD [])
      (MethodOperation.inOrder (operationsOf fields))
  | _ => .mk none [] []

/-- The operations among the fields of a path item. -/
def operationsOf : List (String × Json) → List MethodOperation
  | [] => []
  | (name, value) :: rest =>
    match Method.ofName? name with
    | some method => .mk method (Operation.ofJson value) :: operationsOf rest
    | none => operationsOf rest

/-- The operation that a value is. -/
def Operation.ofJson : Json → Operation
  | .object fields => .mk (OperationFacts.ofJson (.object fields)) (callbacksOf fields)
  | value => .mk (OperationFacts.ofJson value) []

/-- The callbacks of an operation with these fields. -/
def callbacksOf : List (String × Json) → List NamedCallback
  | [] => []
  | (name, value) :: rest => if name = "callbacks" then callbacksIn value else callbacksOf rest

/-- The callbacks in an object value. -/
def callbacksIn : Json → List NamedCallback
  | .object fields => namedCallbacks fields
  | _ => []

/-- The callbacks of fields. -/
def namedCallbacks : List (String × Json) → List NamedCallback
  | [] => []
  | (name, value) :: rest => .mk name (Callback.ofJson value) :: namedCallbacks rest

/-- The callback that a value is. -/
def Callback.ofJson : Json → Callback
  | .object fields =>
    match Pointer.target? (.object fields) with
    | some reference => .reference reference
    | none => .items (namedItems fields)
  | _ => .items []

/-- The path items of fields. -/
def namedItems : List (String × Json) → List NamedItem
  | [] => []
  | (expression, value) :: rest => .mk expression (PathItem.ofJson value) :: namedItems rest

end

namespace PathItem

/-- The reference, if the path item is a reference object. -/
def reference : PathItem → Option String
  | mk reference _ _ => reference

/-- The operations in the order of the methods. -/
def operations : PathItem → List MethodOperation
  | mk _ _ operations => operations

end PathItem

end Typewright.Api
