import Typewright.Proofs.Api.Entries
import Typewright.Proofs.Generation.Closed

/-!
# Generation agrees with the listed operations

The operations of a document are listed without visiting it (`Api.operationEntries`).  Where the
fragments of a document are made, they have the identifier, the output and the warning of every
operation that is listed for a path item, unless that is a reference object; and where nothing else
leads to an operation, they have no others (`Generation.fragments_agrees_with_listing`).
-/

namespace Typewright.Generation

open Api

section Document

variable {document : Json} {options : Options} {set : FragmentSet} {stats : Statistics}

theorem document_walkOf_of_api (hkind : DocumentKind.ofDocument document = .api) (options : Options) :
    (walkOf document options).document = normalize document := by
  simp only [walkOf, hkind]

/-- Normalizing a document leaves its path items alone. -/
theorem pathItems_normalize (hkind : DocumentKind.ofDocument document = .api) :
    pathItems (normalize document) = pathItems document := by
  obtain ⟨fields, rfl⟩ := exists_fields_of_api hkind
  unfold pathItems
  refine List.flatMap_congr fun collection hcollection => ?_
  have hne : collection ≠ componentsKey := by
    rintro rfl
    exact absurd hcollection (by decide)
  rw [entries?_normalize hne]

/-- A named schema is no path item and no callback. -/
theorem not_addressesPaths_of_declared {document : Json} {reference : String}
    (h : reference ∈ declaredSchemaReferences document .api) : ¬ AddressesPaths reference := by
  obtain ⟨path, hpath, hreference⟩ := List.mem_flatMap.1 h
  obtain ⟨name, -, rfl⟩ := List.mem_map.1 hreference
  have hsplit : Pointer.split (Pointer.join (path ++ [name])) =
      componentsKey :: "schemas" :: [name].filter (· ≠ "") := by
    rw [List.mem_singleton.1 hpath, Pointer.split_join_eq, List.filter_append]
    rfl
  rintro ⟨other, hother | hother⟩ <;> simp [hsplit] at hother

/-- The fragments of a document list the operations that are met in its path items, and then those
    that only an expansion leads to. -/
theorem exists_lists_of_fragments_eq_ok (hkind : DocumentKind.ofDocument document = .api)
    (h : fragments document options = .ok (set, stats)) :
    ∃ more,
      set.Lists (((pathItems document).flatMap fun (path, item) => item.entries path) ++ more) ∧
      ((∀ reference ∈ Pointer.references document, ¬ AddressesPaths reference) → more = []) := by
  obtain ⟨initial, names, passes, names', hstart, hpasses, -, -⟩ :=
    exists_passes_of_fragments_eq_ok h
  rw [hkind] at hstart
  have hwalk := document_walkOf_of_api hkind options
  have hinitial := Walk.lists_documentFragments _ _ _ _ hstart
  rw [hwalk, pathItems_normalize hkind] at hinitial
  obtain ⟨more, hmore, hnone⟩ := hpasses.exists_lists hinitial
  refine ⟨more, hmore, fun hreferences => hnone ?_⟩
  have hdocument : ∀ reference ∈ Pointer.references (walkOf document options).document,
      ¬ AddressesPaths reference := by
    intro reference hreference
    rw [hwalk] at hreference
    exact hreferences reference (references_normalize_subset document hreference)
  -- What is expanded came up at the start or is written in the document.
  have hassumed := Walk.allowed_documentFragments hdocument
    (fun _ hdeclared => not_addressesPaths_of_declared hdeclared) _ _ _ hstart
  exact hpasses.forall_expandedIn hassumed hdocument

/-- The fragments of an interface agree with the operations that are listed for it, which are those of
    its path items.  Every operation of a path item that is no reference object is met under its
    identifier, its output is declared, and there is a warning if the identifier was made.  If no path
    item is a reference object, no operation has callbacks, and nothing refers to a path item or a
    callback among the components, then the listed operations are all that are met, in order, and the
    warnings about identifiers that were made are those about them, in order. -/
theorem fragments_agrees_with_listing (hkind : DocumentKind.ofDocument document = .api)
    (h : fragments document options = .ok (set, stats)) :
    (operationEntries document = (pathItems document).flatMap fun (path, item) =>
      item.operations.map (OperationEntry.ofOperation path)) ∧
    (∀ path item, (path, item) ∈ pathItems document → item.reference = none →
      ∀ entry ∈ item.operations.map (OperationEntry.ofOperation path),
        entry.id ∈ set.operations ∧
        set.Declared (Pointer.join ["operations", entry.id, "output"]) ∧
        (entry.synthesized = true →
          .operationIdSynthesized entry.method.upperName entry.path entry.id ∈ set.warnings)) ∧
    ((∀ path item, (path, item) ∈ pathItems document → item.reference = none ∧
        ∀ operation ∈ item.operations, operation.operation.callbacks = []) →
      (∀ reference ∈ Pointer.references document, ¬ AddressesPaths reference) →
      set.operations = Text.distinct ((operationEntries document).map (·.id)) ∧
      set.warnings.filter Warning.isSynthesized =
        ((operationEntries document).filter (·.synthesized)).map OperationEntry.warning) := by
  obtain ⟨more, hlists, hnone⟩ := exists_lists_of_fragments_eq_ok hkind h
  refine ⟨operationEntries_eq document, fun path item hitem hreference entry hentry => ?_,
    fun hitems hreferences => ?_⟩
  · have hmet : entry ∈ ((pathItems document).flatMap fun (path, item) => item.entries path) ++ more := by
      obtain ⟨operation, hoperation, rfl⟩ := List.mem_map.1 hentry
      refine List.mem_append_left _ (List.mem_flatMap.2 ⟨_, hitem, ?_⟩)
      exact PathItem.mem_entries hreference hoperation
    exact ⟨hlists.mem_operations hmet, hlists.outputs entry hmet, hlists.mem_warnings hmet⟩
  · have hentries : ((pathItems document).flatMap fun (path, item) => item.entries path) =
        operationEntries document := by
      rw [operationEntries_eq]
      refine List.flatMap_congr fun ⟨path, item⟩ hmem => ?_
      obtain ⟨hreference, hcallbacks⟩ := hitems path item hmem
      exact PathItem.entries_eq_map hreference hcallbacks
    -- Without callbacks, reference objects and references to either, nothing is visited but what is
    -- listed.
    rw [hnone hreferences, List.append_nil, hentries] at hlists
    exact ⟨hlists.operations, hlists.warnings⟩

end Document

/-- An interface whose operations are two with one identifier, and one without an identifier, whose
    body refers to a schema. -/
def namelessInterface : Json :=
  let pet := Json.object [("$ref", .string "#/components/schemas/Pet")]
  let list := Json.object [("operationId", .string "listPets")]
  .object [
    ("openapi", .string "3.1.0"),
    ("paths", .object [
      ("/pets", .object [
        ("post", .object [("requestBody", .object [("content", .object [
          ("application/json", .object [("schema", pet)])])])]),
        ("get", list)]),
      ("/pets/all", .object [("get", list)])]),
    ("components", .object [("schemas", .object [("Pet", .object [("type", .string "string")])])])]

/-- No path item is a reference object, and no operation has callbacks. -/
def isPlainListing (document : Json) : Bool :=
  (pathItems document).all fun (_, item) =>
    item.reference.isNone && item.operations.all (·.operation.callbacks.isEmpty)

theorem of_isPlainListing {document : Json} (h : isPlainListing document = true) (path : String)
    (item : PathItem) (hitem : (path, item) ∈ pathItems document) :
    item.reference = none ∧ ∀ operation ∈ item.operations, operation.operation.callbacks = [] := by
  have hplain := List.all_eq_true.1 h _ hitem
  simp only [Bool.and_eq_true, Option.isNone_iff_eq_none, List.all_eq_true, List.isEmpty_iff] at hplain
  exact hplain

theorem exists_of_isOk {document : Json} {options : Options}
    (h : (fragments document options).isOk = true) :
    ∃ set stats, fragments document options = .ok (set, stats) := by
  cases hmade : fragments document options with
  | ok made => exact ⟨made.1, made.2, rfl⟩
  | error failure =>
    rw [hmade] at h
    exact absurd h Bool.false_ne_true

/-- The operation without an identifier gets one, which the warning names; the identifier that two
    operations have is met once. -/
theorem fragments_agrees_with_listing_nameless :
    DocumentKind.ofDocument namelessInterface = .api ∧
      ∃ set stats, fragments namelessInterface {} = .ok (set, stats) ∧
        (operationEntries namelessInterface).map (·.id) = ["listPets", "PostPets", "listPets"] ∧
        set.Declared (Pointer.join ["operations", "PostPets", "output"]) ∧
        set.operations = ["listPets", "PostPets"] ∧
        set.warnings.filter Warning.isSynthesized =
          [.operationIdSynthesized "POST" "/pets" "PostPets"] := by
  have hkind : DocumentKind.ofDocument namelessInterface = .api := by decide
  have hplain : isPlainListing namelessInterface = true := by decide +kernel
  have hreferences : ∀ reference ∈ Pointer.references namelessInterface,
      ¬ AddressesPaths reference := by
    have hpet : Pointer.references namelessInterface = ["#/components/schemas/Pet"] := by decide
    intro reference hreference
    rw [hpet, List.mem_singleton] at hreference
    have hsplit : Pointer.split reference = [componentsKey, "schemas", "Pet"] := by
      rw [hreference]
      decide
    rintro ⟨name, hname | hname⟩ <;> simp [hsplit] at hname
  obtain ⟨set, stats, hmade⟩ := exists_of_isOk
    (by decide +kernel : (fragments namelessInterface {}).isOk = true)
  obtain ⟨hentries, hlisted, hall⟩ := fragments_agrees_with_listing hkind hmade
  obtain ⟨hoperations, hwarnings⟩ := hall (of_isPlainListing hplain) hreferences
  have hids : (operationEntries namelessInterface).map (·.id) =
      ["listPets", "PostPets", "listPets"] := by decide +kernel
  refine ⟨hkind, set, stats, hmade, hids, ?_, ?_, ?_⟩
  · have hposts : { id := "PostPets", method := .post, path := "/pets", synthesized := true } ∈
        operationEntries namelessInterface := by
      decide +kernel
    rw [hentries] at hposts
    obtain ⟨⟨path, item⟩, hitem, hposts⟩ := List.mem_flatMap.1 hposts
    exact (hlisted path item hitem (of_isPlainListing hplain path item hitem).1 _ hposts).2.1
  · rw [hoperations, hids]
    decide
  · rw [hwarnings]
    decide +kernel

end Typewright.Generation
