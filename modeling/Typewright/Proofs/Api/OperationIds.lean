import Mathlib.Data.List.Nodup
import Mathlib.Data.List.Perm.Basic
import Typewright.Proofs.Api.Entries

/-!
# Identifiers of operations

An operation without an identifier of its own is called by its method and the identifiers of the
segments of its path (`synthesizedId_eq`).  The method can be read off that name, but not the path:
paths whose segments have identifiers that make up one text are not told apart.  So the identifiers of
a document differ, if those that it declares do, exactly if the paths of the other operations of each
method are told apart and none of their names is declared (`nodup_operationIds_iff`).
-/

namespace Typewright.Api

/-! ### Names made from methods and paths -/

/-- The identifiers of the segments of a path, one after the other. -/
def pathName (path : String) : String :=
  String.join ((((Text.splitOnChar '/' path.toList).filter (!·.isEmpty)).map String.ofList).map
    Naming.identifier)

theorem synthesizedId_eq (method : Method) (path : String) :
    synthesizedId method path = Naming.identifier method.name ++ pathName path :=
  String.join_cons

namespace Method

/-- The first letters of the name of a method. -/
def initials (method : Method) : List Char :=
  (Naming.identifier method.name).toList.take 3

theorem initials_injective : Function.Injective initials := by
  intro method other h
  cases method <;> cases other <;> first | rfl | exact absurd h (by decide)

theorem three_le_length (method : Method) : 3 ≤ (Naming.identifier method.name).toList.length := by
  cases method <;> decide

/-- No name of a method starts another one, so a method can be read off what starts with its name. -/
theorem eq_of_identifier_append_eq {method other : Method} {rest rest' : String}
    (h : Naming.identifier method.name ++ rest = Naming.identifier other.name ++ rest') :
    method = other ∧ rest = rest' := by
  have hchars := congrArg String.toList h
  rw [String.toList_append, String.toList_append] at hchars
  have hmethod : method = other := by
    refine initials_injective ?_
    have htake := congrArg (List.take 3) hchars
    rwa [List.take_append_of_le_length method.three_le_length,
      List.take_append_of_le_length other.three_le_length] at htake
  subst hmethod
  exact ⟨rfl, String.toList_inj.1 (List.append_cancel_left hchars)⟩

end Method

/-- Operations get one name exactly if they have one method and paths of one name. -/
theorem synthesizedId_eq_iff {method other : Method} {path path' : String} :
    synthesizedId method path = synthesizedId other path' ↔
      method = other ∧ pathName path = pathName path' := by
  rw [synthesizedId_eq, synthesizedId_eq]
  constructor
  · exact Method.eq_of_identifier_append_eq
  · rintro ⟨rfl, hpath⟩
    rw [hpath]

/-! ### The identifiers of a document -/

/-- The identifiers that the operations of a document declare, in document order. -/
def declaredIds (document : Json) : List String :=
  (pathItems document).flatMap fun (_, item) =>
    item.operations.filterMap (·.operation.facts.operationId)

/-- The entries of the operations that declare no identifier. -/
def namelessEntries (document : Json) : List OperationEntry :=
  (operationEntries document).filter (·.synthesized)

theorem map_id_declared (path : String) (operations : List MethodOperation) :
    ((operations.map (OperationEntry.ofOperation path)).filter (!·.synthesized)).map (·.id) =
      operations.filterMap (·.operation.facts.operationId) := by
  induction operations with
  | nil => rfl
  | cons operation rest ih =>
    rw [List.map_cons, List.filterMap_cons, ← ih]
    cases hid : operation.operation.facts.operationId <;>
      simp [OperationEntry.ofOperation, hid]

theorem declaredIds_eq (document : Json) :
    ((operationEntries document).filter (!·.synthesized)).map (·.id) = declaredIds document := by
  rw [operationEntries_eq, List.filter_flatMap, List.map_flatMap, declaredIds]
  exact List.flatMap_congr fun entry _ => map_id_declared entry.1 _

theorem id_eq_of_mem_namelessEntries {document : Json} {entry : OperationEntry}
    (h : entry ∈ namelessEntries document) : entry.id = synthesizedId entry.method entry.path := by
  obtain ⟨hmem, hsynthesized⟩ := List.mem_filter.1 h
  rw [operationEntries_eq] at hmem
  obtain ⟨item, -, hentry⟩ := List.mem_flatMap.1 hmem
  obtain ⟨operation, -, rfl⟩ := List.mem_map.1 hentry
  have hnone : operation.operation.facts.operationId = none := Option.isNone_iff_eq_none.1 hsynthesized
  simp only [OperationEntry.ofOperation, hnone, Option.getD_none]

theorem operationSite_reference_injective (walk : Walk) :
    Function.Injective fun id => (walk.operationSite id).reference := by
  intro id other h
  have hsplit := congrArg Pointer.split h
  simp only [Walk.operationSite, Pointer.split_join_eq] at hsplit
  exact Pointer.eq_of_filter_eq (List.cons.inj hsplit).2

/-- Names that are made differ exactly if the operations differ in their methods or in the names of
    their paths. -/
theorem nodup_namelessIds_iff (document : Json) :
    ((namelessEntries document).map (·.id)).Nodup ↔
      ((namelessEntries document).map fun entry => (entry.method, pathName entry.path)).Nodup := by
  unfold List.Nodup
  rw [List.pairwise_map, List.pairwise_map]
  refine List.Pairwise.iff_of_mem fun {entry other} hentry hother => not_congr ?_
  rw [id_eq_of_mem_namelessEntries hentry, id_eq_of_mem_namelessEntries hother, synthesizedId_eq_iff,
    Prod.mk.injEq]

/-- If the declared identifiers differ, then all identifiers do exactly if operations without one differ
    in their methods or in the names of their paths, and get names that are not declared; and
    operations are declared under different references exactly if their identifiers differ. -/
theorem nodup_operationIds_iff {document : Json} (hdeclared : (declaredIds document).Nodup) :
    (((operationEntries document).map (·.id)).Nodup ↔
      ((namelessEntries document).map fun entry => (entry.method, pathName entry.path)).Nodup ∧
        ∀ entry ∈ namelessEntries document,
          synthesizedId entry.method entry.path ∉ declaredIds document) ∧
    ∀ walk : Walk,
      ((operationEntries document).map fun entry => (walk.operationSite entry.id).reference).Nodup ↔
        ((operationEntries document).map (·.id)).Nodup := by
  constructor
  -- The entries are split into those with a made id and those with their own, whatever their order.
  · have hsplit := (List.filter_append_perm (·.synthesized) (operationEntries document)).map (·.id)
    rw [← hsplit.nodup_iff, List.map_append, declaredIds_eq, ← namelessEntries, List.nodup_append,
      nodup_namelessIds_iff]
    constructor
    · rintro ⟨hnameless, -, hapart⟩
      refine ⟨hnameless, fun entry hentry hmem => ?_⟩
      rw [← id_eq_of_mem_namelessEntries hentry] at hmem
      exact hapart _ (List.mem_map_of_mem hentry) _ hmem rfl
    · rintro ⟨hnameless, hnew⟩
      refine ⟨hnameless, hdeclared, fun id hid other hother heq => ?_⟩
      obtain ⟨entry, hentry, rfl⟩ := List.mem_map.1 hid
      rw [← heq, id_eq_of_mem_namelessEntries hentry] at hother
      exact hnew entry hentry hother
  · intro walk
    have hreferences := List.nodup_map_iff (operationSite_reference_injective walk)
      (l := (operationEntries document).map (·.id))
    rwa [List.map_map] at hreferences

/-- An interface with operations at two paths, the first of which has these fields besides. -/
def twoPaths (first second : String) (fields : List (String × Json)) : Json :=
  let item (fields : List (String × Json)) : Json :=
    .object [("get", .object (("responses", .object []) :: fields))]
  .object [("openapi", .string "3.1.0"), ("paths", .object [(first, item fields), (second, item [])])]

/-- An identifier is declared and the other one is made. -/
def petsInterface : Json :=
  twoPaths "/pets" "/pets/{id}" [("operationId", .string "listPets")]

/-- The identifiers of the two operations on pets differ. -/
theorem nodup_operationIds_pets :
    declaredIds petsInterface = ["listPets"] ∧
      (namelessEntries petsInterface).map (·.id) = ["GetPetsId"] ∧
      ((operationEntries petsInterface).map (·.id)).Nodup := by
  have hdeclared : declaredIds petsInterface = ["listPets"] := by decide +kernel
  refine ⟨hdeclared, by decide +kernel, (nodup_operationIds_iff ?_).1.2 ⟨?_, ?_⟩⟩
  · rw [hdeclared]
    decide
  · decide +kernel
  · decide +kernel

/-- Both identifiers are made, from paths that differ in a dash only. -/
def groupsInterface : Json :=
  twoPaths "/user-groups" "/user/groups" []

/-- No identifier is declared twice, but two operations are called `GetUserGroups`. -/
theorem not_nodup_operationIds_groups :
    (declaredIds groupsInterface).Nodup ∧
      ¬ ((operationEntries groupsInterface).map (·.id)).Nodup := by
  have hids : (operationEntries groupsInterface).map (·.id) = ["GetUserGroups", "GetUserGroups"] := by
    decide +kernel
  refine ⟨by decide +kernel, ?_⟩
  rw [hids]
  decide

end Typewright.Api
