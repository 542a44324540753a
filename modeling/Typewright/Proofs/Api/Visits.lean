import Typewright.Proofs.Api.Registered
import Typewright.Proofs.Api.Rules
import Typewright.Proofs.Fragment.Owned

/-!
# What every visit keeps

Path items, operations and callbacks are visited in turn.  A visit announces references, meets
operations, adds their input and output, and puts sets together.  What all of these keep (`VisitRules`),
every visit keeps, and so does the start of a document that describes an interface
(`VisitRules.givesWithin_documentFragments`).
-/

namespace Typewright.Api

open Run (GivesWithin givesWithin_pure givesWithin_bind givesWithin_foldlM givesWithin_bind_liftExcept)

namespace Walk

/-- An operation that is met has an identifier, and the identifier is not empty. -/
theorem operationId_eq_ok {walk : Walk} {method : Method} {path : String} {facts : OperationFacts}
    (hfacts : ∀ id, .operation id ∈ facts.parts → id ≠ "") {named : String × FragmentSet}
    (h : walk.operationId method path facts = .ok named) :
    named.1 ≠ "" ∧ named.1 ∈ named.2.operations ∧ named.2.fragments = [] := by
  unfold operationId at h
  split at h
  · next id hid =>
    rw [← Except.ok.inj h]
    refine ⟨hfacts id ?_, List.mem_singleton_self _, rfl⟩
    refine List.mem_append_left _ (List.mem_append_left _ (List.mem_append_left _ ?_))
    exact List.mem_map_of_mem (Option.mem_toList.2 hid)
  · split at h
    · exact absurd h (by simp)
    · rw [← Except.ok.inj h]
      exact ⟨Register.synthesizedId_ne_empty method path, List.mem_singleton_self _, rfl⟩

end Walk

open Walk

/-- What a property of sets has to keep to hold of all visits, where the input and the output of an
    operation are `part` of it. -/
structure VisitRules (final : EnumNames) (walk : Walk) (part : String → FragmentSet → Prop)
    (V : FragmentSet → Prop) : Prop where
  plain : ∀ {set}, set.fragments = [] → V set
  announce : ∀ {set} reference, V set → V (set.push (.assumed reference))
  extend : ∀ {set other}, V set → V other → V (set.extend other)
  adopt : ∀ {set other id}, V set → id ∈ set.operations → part id other → V (set.extend other)
  input : ∀ {id location facts shared}, id ≠ "" →
    GivesWithin final (walk.operationInput (walk.operationSite id) location facts shared) (part id)
  output : ∀ {id location operationId facts}, id ≠ "" →
    GivesWithin final (walk.operationOutput (walk.operationSite id) location operationId facts)
      (part id)

namespace VisitRules

variable {final : EnumNames} {walk : Walk} {part : String → FragmentSet → Prop}
  {V : FragmentSet → Prop}

mutual

/-- What the rules keep holds of the set of a path item, and of all sets that are made on the way. -/
theorem givesWithin_visitPathItem (rules : VisitRules final walk part V) (location path : String)
    (item : PathItem) (h : ∀ id, .operation id ∈ item.parts → id ≠ "") :
    GivesWithin final (walk.visitPathItem location path item) V := by
  obtain ⟨reference, parameters, operations⟩ := item
  cases reference with
  | some reference =>
    rw [visitPathItem]
    exact givesWithin_pure (rules.announce _ (rules.plain rfl))
  | none =>
    rw [visitPathItem]
    refine (rules.givesWithin_visitOperations location path _ operations (fun id hid => h id ?_)
      {}).mono fun done hdone => hdone (rules.plain rfl)
    rw [PathItem.parts]
    exact List.mem_append_right _ hid
termination_by structural item

theorem givesWithin_visitOperations (rules : VisitRules final walk part V) (location path : String)
    (shared : List Located) (operations : List MethodOperation)
    (h : ∀ id, .operation id ∈ partsOfOperations operations → id ≠ "") (set : FragmentSet) :
    GivesWithin final (walk.visitOperations location path shared operations set) fun done =>
      V set → V done := by
  cases operations with
  | nil => exact givesWithin_pure id
  | cons each rest =>
    obtain ⟨method, operation⟩ := each
    rw [visitOperations]
    refine givesWithin_bind (rules.givesWithin_visitOperation _ method path shared operation
      fun id hid => h id (List.mem_append_left _ hid)) fun visited => ?_
    exact (rules.givesWithin_visitOperations location path shared rest
      (fun id hid => h id (List.mem_append_right _ hid)) _).mono fun done hdone hvisited hset =>
        hdone (rules.extend hset hvisited)
termination_by structural operations

theorem givesWithin_visitOperation (rules : VisitRules final walk part V) (location : String)
    (method : Method) (path : String) (shared : List Located) (operation : Operation)
    (h : ∀ id, .operation id ∈ operation.parts → id ≠ "") :
    GivesWithin final (walk.visitOperation location method path shared operation) V := by
  obtain ⟨facts, callbacks⟩ := operation
  rw [visitOperation]
  refine givesWithin_bind_liftExcept fun named hnamed => ?_
  obtain ⟨hid, hmet, hnone⟩ := operationId_eq_ok
    (fun id hid => h id (List.mem_append_left _ hid)) hnamed
  refine givesWithin_bind (rules.input hid) fun input => ?_
  refine givesWithin_bind (rules.output hid) fun output => ?_
  refine (rules.givesWithin_visitCallbacks _ callbacks (fun id hid =>
    h id (List.mem_append_right _ hid)) _).mono fun done hdone houtput hinput => hdone ?_
  -- Input and output are adopted by the operation, whose id the set has met.
  have hwithInput := rules.adopt (rules.plain hnone) hmet hinput
  exact rules.adopt hwithInput (FragmentSet.mem_operations_extend.2 (.inl hmet)) houtput
termination_by structural operation

theorem givesWithin_visitCallbacks (rules : VisitRules final walk part V) (location : String)
    (callbacks : List NamedCallback)
    (h : ∀ id, .operation id ∈ partsOfCallbacks callbacks → id ≠ "") (set : FragmentSet) :
    GivesWithin final (walk.visitCallbacks location callbacks set) fun done =>
      V set → V done := by
  cases callbacks with
  | nil => exact givesWithin_pure id
  | cons each rest =>
    obtain ⟨name, callback⟩ := each
    rw [visitCallbacks]
    refine givesWithin_bind (rules.givesWithin_visitCallback _ callback
      fun id hid => h id (List.mem_append_left _ hid)) fun visited => ?_
    exact (rules.givesWithin_visitCallbacks location rest
      (fun id hid => h id (List.mem_append_right _ hid)) _).mono fun done hdone hvisited hset =>
        hdone (rules.extend hset hvisited)
termination_by structural callbacks

theorem givesWithin_visitCallback (rules : VisitRules final walk part V) (location : String)
    (callback : Callback) (h : ∀ id, .operation id ∈ callback.parts → id ≠ "") :
    GivesWithin final (walk.visitCallback location callback) V := by
  cases callback with
  | reference reference =>
    rw [visitCallback]
    exact givesWithin_pure (rules.announce _ (rules.plain rfl))
  | items items =>
    rw [visitCallback]
    exact (rules.givesWithin_visitItems location items h {}).mono fun done hdone =>
      hdone (rules.plain rfl)
termination_by structural callback

theorem givesWithin_visitItems (rules : VisitRules final walk part V) (location : String)
    (items : List NamedItem) (h : ∀ id, .operation id ∈ partsOfItems items → id ≠ "")
    (set : FragmentSet) :
    GivesWithin final (walk.visitItems location items set) fun done =>
      V set → V done := by
  cases items with
  | nil => exact givesWithin_pure id
  | cons each rest =>
    obtain ⟨expression, item⟩ := each
    rw [visitItems]
    refine givesWithin_bind (rules.givesWithin_visitPathItem _ expression item
      fun id hid => h id (List.mem_append_left _ hid)) fun visited => ?_
    exact (rules.givesWithin_visitItems location rest
      (fun id hid => h id (List.mem_append_right _ hid)) _).mono fun done hdone hvisited hset =>
        hdone (rules.extend hset hvisited)
termination_by structural items

end

/-- A document that describes an interface starts from its operations. -/
theorem givesWithin_documentFragments (rules : VisitRules final walk part V)
    (hschemas : V (declaredSchemas walk.document .api)) :
    GivesWithin final walk.documentFragments V := by
  unfold documentFragments
  refine givesWithin_bind (givesWithin_foldlM (Q := V) (fun set collection _ => ?_) {})
    fun set => givesWithin_pure fun hset => ?_
  · refine givesWithin_foldlM (fun set entry _ => ?_) set
    refine givesWithin_bind (rules.givesWithin_visitPathItem _ _ _ fun id hid => from_pathItem hid)
      fun visited => ?_
    exact givesWithin_pure fun hvisited hset => rules.extend hset hvisited
  · split
    · exact rules.extend (hset (rules.plain rfl)) hschemas
    · exact hset (rules.plain rfl)

end VisitRules

end Typewright.Api
