import Typewright.Proofs.Api.Normal
import Typewright.Proofs.Generation.Closed

/-!
# Every generated type is in normal form

The fragments of a document are normal at the start (`Generation.givesNormal_initialFragments`), every
expansion makes normal ones, and the passes only put sets together; hence all types of the final set are
normal, at every depth (`Generation.fragments_normal`).
-/

namespace Typewright.Generation

open Api

/-- The walk through a document stands in a space that is an identifier. -/
theorem identifier_space_walkOf (document : Json) (options : Options) :
    Naming.identifier (walkOf document options).space = (walkOf document options).space :=
  Naming.identifier_identifier _

theorem givesNormal_initialFragments (document : Json) (options : Options) (kind : DocumentKind) :
    (initialFragments (walkOf document options) kind).Gives FragmentSet.Normal := by
  refine Run.gives_of_givesWithin fun final => ?_
  cases kind with
  | api => exact Walk.givesNormal_documentFragments (identifier_space_walkOf document options)
  | schema => exact Walk.givesNormal_rootFragments _

/-- Every type that is made of a document is in normal form, whatever the options: everywhere inside it
    unions have several members, no two of them equal and none a union, intersections have several
    members, none an intersection, only primitive types are made free of null, and references are paths
    of identifiers.  Redirects lead to such paths, too. -/
theorem fragments_normal {document : Json} {options : Options} {set : FragmentSet}
    {stats : Statistics} (h : fragments document options = .ok (set, stats)) :
    ∀ fragment ∈ set.fragments, fragment.Normal := by
  obtain ⟨initial, names, passes, names', hstart, hpasses, -, -⟩ := exists_passes_of_fragments_eq_ok h
  have hinitial : initial.Normal := givesNormal_initialFragments document options _ _ _ _ hstart
  have hexpand (reference : String) (_ : True) :
      ((walkOf document options).expand reference).Gives FragmentSet.Normal :=
    Run.gives_of_givesWithin fun final =>
      Walk.givesNormal_expand (identifier_space_walkOf document options) reference
  exact hpasses.keeps (fun _ _ _ => trivial) (fun hset hother => hset.extend hother) hinitial hexpand

/-- An interface of orders, with a union and nested intersections, and references among the parameters
    and responses. -/
def orderInterface : Json :=
  let refers (text : String) := Json.object [("$ref", .string text)]
  let typed (name : String) := Json.object [("type", .string name)]
  let answer := Json.object [("oneOf", .array
    [refers "#/components/schemas/order", typed "string", typed "string"])]
  let priced := Json.object [("allOf", .array
    [refers "#/components/schemas/price", refers "#/components/schemas/item"])]
  .object [
    ("openapi", .string "3.0.0"),
    ("paths", .object [("/orders", .object [("get", .object [
      ("operationId", .string "list-orders"),
      ("parameters", .array [refers "#/components/parameters/page"]),
      ("responses", .object [
        ("200", .object [("content", .object [
          ("application/json", .object [("schema", answer)])])]),
        ("404", refers "#/components/responses/missing")])])])]),
    ("components", .object [
      ("parameters", .object [("page", .object
        [("name", .string "page"), ("in", .string "query"), ("schema", typed "integer")])]),
      ("responses", .object [("missing", .object [])]),
      ("schemas", .object [
        ("order", .object [("allOf", .array [refers "#/components/schemas/item", priced])]),
        ("item", typed "object"),
        ("price", typed "number")])])]

/-- The type that a fragment gives. -/
def typeOf? : Fragment → Option TypeExpr
  | .statement _ _ type => some type
  | .declaration _ _ (.type type) => some type
  | .member _ _ _ (.type type) => some type
  | _ => none

/-- The texts of the types that are made of the interface of orders. -/
def orderTypes : List String :=
  ["Components.Schemas.Order | NonNullable<string>", "200",
    "{ status: 404 } & Components.Responses.Missing",
    "API.ListOrders.Responses._200 | API.ListOrders.Responses._404", "NonNullable<number>",
    "Components.Schemas.Item & Components.Schemas.Price & Components.Schemas.Item",
    "{}", "{}", "NonNullable<number>"]

/-- The alternative that is written twice comes once, and the inner intersection is part of the outer
    one, where `Item` comes twice. -/
theorem fragments_normal_orders :
    ∃ set stats, fragments orderInterface {} = .ok (set, stats) ∧
      (set.fragments.filterMap typeOf?).map TypeExpr.text = orderTypes ∧
      ∀ fragment ∈ set.fragments, fragment.Normal := by
  obtain ⟨set, stats, hmade, htexts⟩ := exists_of_makes
    (by decide +kernel : makes orderInterface {} (fun set =>
      (set.fragments.filterMap typeOf?).map TypeExpr.text == orderTypes) = true)
  exact ⟨set, stats, hmade, eq_of_beq htexts, fragments_normal hmade⟩

end Typewright.Generation
