import Typewright.Proofs.Api.Diagnostics
import Typewright.Proofs.Generation.Leniency
import Typewright.Proofs.Json.Fields

/-!
# Where the diagnostics of a document point

Normalizing a document leaves every value addressable, so the walk through it starts in step with its
locations.  Hence every warning of a generation, and the failure of one that fails, points at the value
that it is about (`Generation.fragments_pointsInto`).
-/

namespace Typewright

/-! ### Normalized documents -/

namespace Json

variable {name : String} {value : Json} {fields : List (String × Json)}

/-- Setting a field to an addressable value keeps an object addressable. -/
theorem Addressable.setField (h : (object fields).Addressable) (hname : name ≠ "")
    (hvalue : value.Addressable) : (object (setField name value fields)).Addressable := by
  obtain ⟨hnodup, hfields⟩ := addressable_object_iff.1 h
  refine addressable_object_iff.2 ⟨nodup_setField hnodup, fun field hfield => ?_⟩
  rcases mem_setField hfield with rfl | hfield
  · exact ⟨hname, hvalue⟩
  · exact hfields field hfield

theorem addressable_emptyObject : (object []).Addressable :=
  addressable_object_iff.2 ⟨List.nodup_nil, fun _ hfield => absurd hfield List.not_mem_nil⟩

end Json

namespace Api

/-- A bucket that is missing is made empty. -/
theorem addressable_ensureObject {fields : List (String × Json)} {name : String}
    (h : (Json.object fields).Addressable) (hname : name ≠ "") :
    (Json.object (ensureObject fields name)).Addressable := by
  unfold ensureObject
  split
  · exact h
  · exact h.setField hname Json.addressable_emptyObject

theorem addressable_ensureObjects {names : List String} (hnames : ∀ name ∈ names, name ≠ "")
    {fields : List (String × Json)} (h : (Json.object fields).Addressable) :
    (Json.object (names.foldl ensureObject fields)).Addressable := by
  induction names generalizing fields with
  | nil => exact h
  | cons name rest ih =>
    rw [List.foldl_cons]
    exact ih (fun name hname => hnames name (List.mem_cons_of_mem _ hname))
      (addressable_ensureObject h (hnames name List.mem_cons_self))

theorem addressable_normalizeComponents {components : Json} (h : components.Addressable) :
    (normalizeComponents components).Addressable := by
  have hfields : (Json.object (components.asObject?.getD [])).Addressable := by
    cases components with
    | object fields => exact h
    | _ => exact Json.addressable_emptyObject
  exact addressable_ensureObjects (by decide) hfields

/-- Bringing the components into shape adds no empty keys. -/
theorem addressable_normalize {document : Json} (h : document.Addressable) :
    (normalize document).Addressable := by
  cases document with
  | object fields =>
    refine h.setField (by decide) (addressable_normalizeComponents ?_)
    cases hlookup : fields.lookup componentsKey with
    | none => exact Json.addressable_emptyObject
    | some components => exact h.of_inside (.field (Json.mem_of_lookup hlookup))
  | _ => exact h

theorem normalize_ne_null {document : Json} (h : document ≠ .null) : normalize document ≠ .null := by
  cases document with
  | object fields => simp [normalize]
  | _ => exact h

end Api

/-! ### Generation -/

namespace Generation

open Api

open Pointer (Placed)

/-- The document that a generation works on stands at its root. -/
theorem placed_walkOf {document : Json} (options : Options) (hnull : document ≠ .null)
    (h : document.Addressable) :
    Placed (walkOf document options).document (walkOf document options).document Pointer.root := by
  unfold walkOf
  simp only
  split
  · exact Pointer.placed_root (addressable_normalize h) (normalize_ne_null hnull)
  · exact Pointer.placed_root h hnull

/-- A run visits its document first and then expands what came up; both point into the document. -/
theorem ends_fragmentsRun {walk : Walk} (kind : DocumentKind)
    (hroot : Placed walk.document walk.document Pointer.root) :
    walk.PointsFrom (fragmentsRun walk kind) := by
  have hinitial : walk.PointsSet (initialFragments walk kind) := by
    cases kind with
    | api => exact Walk.ends_documentFragments hroot
    | schema => exact Walk.ends_rootFragments hroot
  refine Run.ends_bind hinitial fun initial hset => ?_
  exact Run.ends_bind (Walk.ends_expandFixedPoint hroot.addressable {} hset) fun done hdone =>
    Run.ends_pure hdone

/-- Diagnostics point at what they are about.  In a document without empty keys, each warning about a
    schema carries a reference that leads to a schema that no rule covers, or to one whose `enum` is
    no array; and the failure of a run that fails carries none, or one that leads to the value whose
    typing raised it, or to the header that is described by `content`.  References lead into the
    document that the run works on, which is the normalized one if it describes an interface. -/
theorem fragments_pointsInto (document : Json) (options : Options) (hnull : document ≠ .null)
    (hformed : document.WellFormed) (hkeys : "" ∉ document.keys) :
    (∀ set stats, fragments document options = .ok (set, stats) →
      ∀ warning ∈ set.warnings, warning.PointsInto (walkOf document options).document) ∧
      ∀ failure, fragments document options = .error failure →
        failure.PointsInto (walkOf document options).document := by
  have hends := ends_fragmentsRun (DocumentKind.ofDocument document)
    (placed_walkOf options hnull ⟨hformed, hkeys⟩)
  rw [fragments_eq]
  refine ⟨fun set stats h => ?_, fun failure h => ?_⟩
  · exact hends.gives _ _ _ (Prod.ext h rfl : _ = (Except.ok (set, stats), _))
  · exact hends.fails ⟨_, (Prod.ext h rfl : _ = (Except.error failure, _))⟩

/-- A parameter that all operations of a path share has a type that does not exist. -/
def petsDocument : Json :=
  .object [("openapi", .string "3.0.0"), ("paths", .object [("/pets~all/{id}", .object
    [("parameters", .array [.object [("name", .string "id"), ("in", .string "path"),
        ("schema", .object [("type", .string "text")])]]),
      ("get", .object [("operationId", .string "getPet")])])])]

theorem fragments_pointsInto_petsDocument :
    let failure := Failure.badType "text" "#/paths/~1pets~0all~1{id}/parameters/0/schema"
    fragments petsDocument {} = .error failure ∧
      failure.PointsInto (walkOf petsDocument {}).document := by
  have hfailure : fragments petsDocument {} = .error
      (.badType "text" "#/paths/~1pets~0all~1{id}/parameters/0/schema") := by rfl
  refine ⟨hfailure, (fragments_pointsInto petsDocument {} (by simp [petsDocument]) ?_ ?_).2 _ hfailure⟩
  · simp [petsDocument]
  · decide

end Generation

end Typewright
