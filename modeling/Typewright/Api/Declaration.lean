import Typewright.Schema.Typing

/-!
# Declarations of parameters, bodies, headers and responses

What is declared for one parameter, request body, header or response.  A reference object is not
followed: it is declared as a redirect, and its reference is announced by an assumed fragment.
-/

namespace Typewright.Api

/-- A walk through a document: the document itself, the context that schemas start from, and the
    namespace of the operations. -/
structure Walk where
  document : Json
  context : Context
  space : String

/-- Where something is declared: the reference of its fragment and its path. -/
structure Site where
  reference : String
  path : List String
deriving DecidableEq, Repr

namespace Site

/-- A site inside another one. -/
def child (site : Site) (segment name : String) : Site :=
  { reference := Pointer.child site.reference segment, path := site.path ++ [name] }

/-- The name of what is declared. -/
def name (site : Site) : String :=
  site.path.getLast?.getD ""

/-- The fragment that declares something at a site. -/
def declare (site : Site) (body : DeclarationBody) : Fragment :=
  .declaration site.reference site.path body

/-- The fragment of a member at a site. -/
def declareMember (site : Site) (optional : Bool) (body : MemberBody) : Fragment :=
  .member site.reference site.path optional body

/-- The redirect to a site. -/
def redirect (site : Site) : Redirect :=
  { reference := site.reference, target := site.path }

end Site

namespace Walk

/-! ### Types -/

/-- The type of a schema value at a location, with a suggested name. -/
def schemaTyping (walk : Walk) (location hint : String) (schema : Json) : Run Typing :=
  (Schema.ofJson schema).unitedTyping ((walk.context.moveTo location).named hint) none

/-- The type of the schema of a value; a value without a schema may have any type. -/
def ownSchemaTyping (walk : Walk) (location hint : String) (value : Json) : Run Typing :=
  match value.field? "schema" with
  | some schema => walk.schemaTyping (Pointer.child location "schema") hint schema
  | none => pure (Typing.ofType .unknown)

/-- The types of all media types of a content. -/
def mediaTypings (walk : Walk) (location hint : String) :
    List (String × Json) → Run (List Typing)
  | [] => pure []
  | (mediaType, media) :: rest => do
    let first ← walk.ownSchemaTyping (Pointer.child location mediaType) hint media
    let others ← walk.mediaTypings location hint rest
    pure (first :: others)

/-- The union of the types of all media types of a content. -/
def contentTyping (walk : Walk) (location hint : String) (content : List (String × Json)) :
    Run Typing := do
  let typings ← walk.mediaTypings location hint content
  pure
    { types := [TypeExpr.unionOf (typings.map (·.unionType))]
      emitted := Schema.emittedOf typings }

/-- The fields of an object-valued field, unless there are none. -/
def nonemptyEntries? (value : Json) (name : String) : Option (List (String × Json)) :=
  (value.entries? name).filter (!·.isEmpty)

/-! ### References -/

/-- The redirect to what a reference declares. -/
def redirectTo (walk : Walk) (reference : String) : Redirect :=
  { reference, target := walk.context.pathOf reference }

/-- A declaration at a site that stands for what a reference declares. -/
def redirectDeclaration (walk : Walk) (site : Site) (reference : String) : FragmentSet :=
  (({} : FragmentSet).push (.assumed reference)).push
    (site.declare (.redirect (walk.redirectTo reference)))

/-- A declaration at a site of the type of a typing. -/
def typeDeclaration (site : Site) (typing : Typing) : FragmentSet :=
  let (set, types) := ({} : FragmentSet).absorb typing
  set.push (site.declare (.type (TypeExpr.unionOf types)))

/-! ### Parameters -/

/-- The type of a parameter: its schema, else the schema of its first media type. -/
def parameterTyping (walk : Walk) (location hint : String) (parameter : Json) : Run Typing :=
  match parameter.field? "schema", (parameter.entries? "content").bind List.head? with
  | none, some (mediaType, media) =>
    walk.ownSchemaTyping (Pointer.descend location ["content", mediaType]) hint media
  | _, _ => walk.ownSchemaTyping location hint parameter

/-- The declaration of the type of a parameter. -/
def parameterDeclaration (walk : Walk) (site : Site) (location : String) (parameter : Json) :
    Run FragmentSet :=
  match Pointer.target? parameter with
  | some reference => pure (walk.redirectDeclaration site reference)
  | none => typeDeclaration site <$> walk.parameterTyping location site.name parameter

/-! ### Request bodies -/

/-- The declaration of the type of a request body: the union over its media types. -/
def requestBodyDeclaration (walk : Walk) (site : Site) (location : String) (body : Json) :
    Run FragmentSet :=
  match Pointer.target? body with
  | some reference => pure (walk.redirectDeclaration site reference)
  | none => do
    let typing ←
      match nonemptyEntries? body "content" with
      | some content => walk.contentTyping (Pointer.child location "content") site.name content
      | none => pure (Typing.ofType .unknown)
    pure (typeDeclaration site typing)

/-! ### Headers -/

/-- The type of a header; only a header with a schema has one. -/
def headerTyping (walk : Walk) (location hint : String) (header : Json) : Run Typing :=
  if (header.field? "content").isSome then throw (.unsupportedHeader location)
  else walk.ownSchemaTyping location hint header

/-- The declaration of the type of a header. -/
def headerDeclaration (walk : Walk) (site : Site) (header : Json) : Run FragmentSet :=
  match Pointer.target? header with
  | some reference => pure (walk.redirectDeclaration site reference)
  | none => typeDeclaration site <$> walk.headerTyping site.reference site.name header

/-- Whether a value, or what it refers to, is required. -/
def isRequired (walk : Walk) (value : Json) : Except Failure Bool :=
  (Pointer.follow walk.document value).map (·.flag "required")

/-- The members for the headers of a response, with whether one of them is required. -/
def headerMembers (walk : Walk) (site : Site) (location : String) :
    List (String × Json) → FragmentSet × Bool → Run (FragmentSet × Bool)
  | [], done => pure done
  | (name, header) :: rest, (set, anyRequired) => do
    let required ← walk.isRequired header
    let declare := (site.child name name).declareMember (!required)
    let set ←
      match Pointer.target? header with
      | some reference =>
        pure ((set.push (.assumed reference)).push
          (declare (.redirect (walk.redirectTo reference))))
      | none => do
        let typing ← walk.headerTyping (Pointer.child location name) name header
        let (set, types) := set.absorb typing
        pure (set.push (declare (.type (TypeExpr.unionOf types))))
    walk.headerMembers site location rest (set, anyRequired || required)

/-! ### Responses -/

/-- The member `body` of a response: the union over its media types; a response with neither a
    content nor headers may have an empty object there. -/
def responseBody (walk : Walk) (site : Site) (location : String) (response : Json)
    (set : FragmentSet) : Run FragmentSet :=
  let body := site.child "body" "body"
  match nonemptyEntries? response "content", nonemptyEntries? response "headers" with
  | some content, _ => do
    let typing ← walk.contentTyping (Pointer.child location "content") site.name content
    let (set, types) := set.absorb typing
    pure (set.push (body.declareMember false (.type (TypeExpr.unionOf types))))
  | none, some _ => pure set
  | none, none => pure (set.push (body.declareMember true (.type .emptyObject)))

/-- The member `headers` of a response, if it has headers. -/
def responseHeaders (walk : Walk) (site : Site) (location : String) (response : Json)
    (set : FragmentSet) : Run FragmentSet :=
  match nonemptyEntries? response "headers" with
  | some headers => do
    let inner := site.child "headers" "headers"
    let (set, anyRequired) ←
      walk.headerMembers inner (Pointer.child location "headers") headers (set, false)
    pure (set.push (inner.declareMember (!anyRequired) .gathered))
  | none => pure set

/-- The declaration of a response: an object type with the members `body` and `headers`. -/
def responseDeclaration (walk : Walk) (site : Site) (location : String) (response : Json) :
    Run FragmentSet :=
  match Pointer.target? response with
  | some reference => pure (walk.redirectDeclaration site reference)
  | none => do
    let set ← walk.responseBody site location response
      (({} : FragmentSet).push (site.declare .gathered))
    walk.responseHeaders site location response set

end Walk

end Typewright.Api
