import Typewright.Api.PathItem
import Typewright.Proofs.Json.Inside

/-!
# The parts of a path item

A path item holds operations with parameters, request bodies and responses, its own and those of the
path items in its callbacks, and reference objects where a path item or a callback is expected.
`PathItem.parts` lists them all.  They are found inside the value that the path item is read from
(`from_pathItem`).
-/

namespace Typewright.Api

/-- A part of a path item. -/
inductive Part where
  /-- A reference object in the place of a path item or of a callback. -/
  | link (reference : String)
  /-- The identifier that an operation has of its own. -/
  | operation (id : String)
  | parameter (value : Json)
  | body (value : Json)
  | response (status : String) (value : Json)

/-- The parts of an operation that hold no path item. -/
def OperationFacts.parts (facts : OperationFacts) : List Part :=
  facts.operationId.toList.map .operation ++ facts.parameters.map .parameter
    ++ facts.requestBody.toList.map .body
    ++ facts.responses.map fun (status, value) => .response status value

mutual

/-- The parts of a path item. -/
def PathItem.parts : PathItem → List Part
  | .mk reference parameters operations =>
    reference.toList.map .link ++ parameters.map .parameter ++ partsOfOperations operations

/-- The parts of operations under their methods. -/
def partsOfOperations : List MethodOperation → List Part
  | [] => []
  | .mk _ operation :: rest => operation.parts ++ partsOfOperations rest

/-- The parts of an operation. -/
def Operation.parts : Operation → List Part
  | .mk facts callbacks => facts.parts ++ partsOfCallbacks callbacks

/-- The parts of callbacks under their names. -/
def partsOfCallbacks : List NamedCallback → List Part
  | [] => []
  | .mk _ callback :: rest => callback.parts ++ partsOfCallbacks rest

/-- The parts of a callback. -/
def Callback.parts : Callback → List Part
  | .reference reference => [.link reference]
  | .items items => partsOfItems items

/-- The parts of path items under their expressions. -/
def partsOfItems : List NamedItem → List Part
  | [] => []
  | .mk _ item :: rest => item.parts ++ partsOfItems rest

end

namespace Part

/-- The part stands inside the value; the identifier of an operation is not empty. -/
def From (outer : Json) : Part → Prop
  | link reference => reference ∈ Pointer.references outer
  | operation id => id ≠ ""
  | parameter value => value.Inside outer
  | body value => value.Inside outer
  | response status value => ∃ fields, (Json.object fields).Inside outer ∧ (status, value) ∈ fields

/-- A part of an inner value is a part of the outer one. -/
theorem From.trans {inner outer : Json} {part : Part} (h : part.From inner)
    (hinside : inner.Inside outer) : part.From outer := by
  cases part with
  | link reference => exact Pointer.references_subset_of_inside hinside h
  | operation id => exact h
  | parameter value => exact Json.Inside.trans h hinside
  | body value => exact Json.Inside.trans h hinside
  | response status value =>
    obtain ⟨fields, hfields, hmem⟩ := h
    exact ⟨fields, hfields.trans hinside, hmem⟩

end Part

/-! ### Reading path items -/

section Reading

variable {value : Json} {part : Part} {fields : List (String × Json)}

/-- The parts of operations are those of each of them. -/
theorem mem_partsOfOperations {operations : List MethodOperation} :
    part ∈ partsOfOperations operations ↔ ∃ each ∈ operations, part ∈ each.operation.parts := by
  induction operations with
  | nil => simp [partsOfOperations]
  | cons each rest ih =>
    obtain ⟨method, operation⟩ := each
    simp [partsOfOperations, ih, MethodOperation.operation]

/-- Putting operations in order adds none. -/
theorem mem_of_mem_inOrder {operations : List MethodOperation} {each : MethodOperation}
    (h : each ∈ MethodOperation.inOrder operations) : each ∈ operations := by
  obtain ⟨method, -, hfind⟩ := List.mem_filterMap.1 h
  exact List.mem_of_find?_eq_some hfind

/-- A method is found by its own name only. -/
theorem Method.name_of_ofName? {name : String} {method : Method}
    (h : Method.ofName? name = some method) : name = method.name := by
  have hname := List.find?_some h
  exact (beq_iff_eq.1 hname).symm

/-- An operation of a path item is read from the field that its method names. -/
theorem exists_of_mem_operationsOf {each : MethodOperation} (h : each ∈ operationsOf fields) :
    ∃ field ∈ fields, field.1 = each.method.name ∧ each.operation = Operation.ofJson field.2 := by
  induction fields with
  | nil => simp [operationsOf] at h
  | cons field rest ih =>
    obtain ⟨name, value⟩ := field
    rw [operationsOf] at h
    split at h
    · next method hmethod =>
      rcases List.mem_cons.1 h with rfl | h
      · exact ⟨_, List.mem_cons_self, Method.name_of_ofName? hmethod, rfl⟩
      · obtain ⟨field, hfield, heq⟩ := ih h
        exact ⟨field, List.mem_cons_of_mem _ hfield, heq⟩
    · obtain ⟨field, hfield, heq⟩ := ih h
      exact ⟨field, List.mem_cons_of_mem _ hfield, heq⟩

theorem exists_of_mem_partsOfCallbacks (h : part ∈ partsOfCallbacks (namedCallbacks fields)) :
    ∃ field ∈ fields, part ∈ (Callback.ofJson field.2).parts := by
  induction fields with
  | nil => simp [namedCallbacks, partsOfCallbacks] at h
  | cons field rest ih =>
    obtain ⟨name, value⟩ := field
    rw [namedCallbacks, partsOfCallbacks, List.mem_append] at h
    rcases h with h | h
    · exact ⟨_, List.mem_cons_self, h⟩
    · obtain ⟨field, hfield, hpart⟩ := ih h
      exact ⟨field, List.mem_cons_of_mem _ hfield, hpart⟩

theorem exists_of_mem_partsOfItems (h : part ∈ partsOfItems (namedItems fields)) :
    ∃ field ∈ fields, part ∈ (PathItem.ofJson field.2).parts := by
  induction fields with
  | nil => simp [namedItems, partsOfItems] at h
  | cons field rest ih =>
    obtain ⟨name, value⟩ := field
    rw [namedItems, partsOfItems, List.mem_append] at h
    rcases h with h | h
    · exact ⟨_, List.mem_cons_self, h⟩
    · obtain ⟨field, hfield, hpart⟩ := ih h
      exact ⟨field, List.mem_cons_of_mem _ hfield, hpart⟩

/-- The callbacks of an operation are those of its first field of that name. -/
theorem callbacksOf_eq (fields : List (String × Json)) :
    callbacksOf fields = callbacksIn ((fields.lookup "callbacks").getD .null) := by
  induction fields with
  | nil => rfl
  | cons field rest ih =>
    obtain ⟨name, value⟩ := field
    rw [callbacksOf, Json.lookup_cons_eq, ih]
    split <;> rfl

theorem callbacksIn_eq (value : Json) :
    callbacksIn value = namedCallbacks (value.asObject?.getD []) := by
  cases value <;> rfl

/-- The callbacks of an operation are the fields under their keyword. -/
theorem Operation.ofJson_eq (value : Json) :
    Operation.ofJson value = .mk (OperationFacts.ofJson value)
      (namedCallbacks ((value.entries? "callbacks").getD [])) := by
  cases value with
  | object fields =>
    rw [Operation.ofJson, callbacksOf_eq, callbacksIn_eq, Json.entries?, Json.field?_object]
    cases fields.lookup "callbacks" <;> rfl
  | _ => rfl

/-- A parameter stands in the array under its key. -/
theorem from_parameter {name : String} {parameter : Json}
    (h : parameter ∈ (value.items? name).getD []) : (Part.parameter parameter).From value := by
  cases hitems : value.items? name with
  | none => simp [hitems] at h
  | some items =>
    rw [hitems, Option.getD_some] at h
    exact Json.inside_of_mem_items? hitems h

/-- All that an operation says of itself stands inside it. -/
theorem from_operationFacts (h : part ∈ (OperationFacts.ofJson value).parts) : part.From value := by
  rw [OperationFacts.parts, List.mem_append, List.mem_append, List.mem_append] at h
  rcases h with ((h | h) | h) | h
  · obtain ⟨id, hid, rfl⟩ := List.mem_map.1 h
    rintro rfl
    -- A blank identifier does not count.
    have hblank := (Option.filter_eq_some_iff.1 (Option.mem_toList.1 hid)).2
    exact absurd hblank (by decide)
  · obtain ⟨parameter, hparameter, rfl⟩ := List.mem_map.1 h
    exact from_parameter hparameter
  · obtain ⟨body, hbody, rfl⟩ := List.mem_map.1 h
    exact Json.inside_of_field? (Option.mem_toList.1 hbody)
  · obtain ⟨⟨status, response⟩, hresponse, rfl⟩ := List.mem_map.1 h
    obtain ⟨entries, hentries, hresponse⟩ := Json.exists_entries?_of_mem_getD hresponse
    exact ⟨entries, Json.inside_of_field? (Json.entries?_eq_some.1 hentries), hresponse⟩

theorem from_pathItem_of_operations
    (hoperation : ∀ field ∈ fields, ∀ part ∈ (Operation.ofJson field.2).parts, part.From field.2)
    (h : part ∈ (PathItem.ofJson (.object fields)).parts) : part.From (.object fields) := by
  rw [PathItem.ofJson, PathItem.parts, List.mem_append, List.mem_append] at h
  rcases h with (h | h) | h
  · obtain ⟨reference, hreference, rfl⟩ := List.mem_map.1 h
    exact Pointer.mem_references_of_target? (Option.mem_toList.1 hreference)
  · obtain ⟨parameter, hparameter, rfl⟩ := List.mem_map.1 h
    exact from_parameter hparameter
  · obtain ⟨each, heach, hpart⟩ := mem_partsOfOperations.1 h
    obtain ⟨field, hfield, -, heq⟩ := exists_of_mem_operationsOf (mem_of_mem_inOrder heach)
    rw [heq] at hpart
    exact (hoperation field hfield part hpart).trans (.field hfield)

theorem from_operation_of_callbacks (hcallback : ∀ inner, inner.Inside value →
      ∀ part ∈ (Callback.ofJson inner).parts, part.From inner)
    (h : part ∈ (Operation.ofJson value).parts) : part.From value := by
  rw [Operation.ofJson_eq, Operation.parts, List.mem_append] at h
  rcases h with h | h
  · exact from_operationFacts h
  · obtain ⟨field, hfield, hpart⟩ := exists_of_mem_partsOfCallbacks h
    obtain ⟨entries, hentries, hfield⟩ := Json.exists_entries?_of_mem_getD hfield
    have hinside := Json.inside_of_mem_entries? hentries hfield
    exact (hcallback field.2 hinside part hpart).trans hinside

theorem from_callback_of_items
    (hitem : ∀ field ∈ fields, ∀ part ∈ (PathItem.ofJson field.2).parts, part.From field.2)
    (h : part ∈ (Callback.ofJson (.object fields)).parts) : part.From (.object fields) := by
  rw [Callback.ofJson] at h
  split at h
  · next reference htarget =>
    rw [Callback.parts, List.mem_singleton] at h
    rw [h]
    exact Pointer.mem_references_of_target? htarget
  · obtain ⟨field, hfield, hpart⟩ := exists_of_mem_partsOfItems h
    exact (hitem field hfield part hpart).trans (.field hfield)

end Reading

/-- The parts of the path item, the operation and the callback that a value is stand inside it. -/
theorem from_parts (value : Json) :
    (∀ part ∈ (PathItem.ofJson value).parts, part.From value) ∧
      (∀ part ∈ (Operation.ofJson value).parts, part.From value) ∧
        ∀ part ∈ (Callback.ofJson value).parts, part.From value := by
  induction value using Json.inside_induction with
  | _ value ih =>
    -- The three are shown together, as each holds values of the next kind inside.
    have hoperation : ∀ part ∈ (Operation.ofJson value).parts, part.From value := fun part hpart =>
      from_operation_of_callbacks (fun inner hinside => (ih inner hinside).2.2) hpart
    cases value with
    | object fields =>
      have hfield {field : String × Json} (h : field ∈ fields) := ih field.2 (.field h)
      exact ⟨fun part hpart => from_pathItem_of_operations (fun field h => (hfield h).2.1) hpart,
        hoperation,
        fun part hpart => from_callback_of_items (fun field h => (hfield h).1) hpart⟩
    | _ =>
      exact ⟨fun part hpart => absurd hpart List.not_mem_nil, hoperation,
        fun part hpart => absurd hpart List.not_mem_nil⟩

/-- The mutual recursion of path items, operations and callbacks, tied up by induction over
    values. -/
theorem from_pathItem {value : Json} {part : Part} (h : part ∈ (PathItem.ofJson value).parts) :
    part.From value :=
  (from_parts value).1 part h

theorem from_callback {value : Json} {part : Part} (h : part ∈ (Callback.ofJson value).parts) :
    part.From value :=
  (from_parts value).2.2 part h

end Typewright.Api
