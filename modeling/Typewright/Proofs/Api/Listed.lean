import Typewright.Proofs.Api.Rules
import Typewright.Proofs.Schema.Rules
import Typewright.Proofs.Text.Distinct

/-!
# Sets that list operations

A set lists operations if it has their identifiers, the warnings about those identifiers that were
made, and their outputs, and no other identifiers and warnings of this kind (`FragmentSet.Lists`).
Sets that are put together list their operations one after the other (`FragmentSet.Lists.extend`).
What is declared for schemas, parameters, bodies, headers and responses lists no operation
(`Api.quietRules`).
-/

namespace Typewright

open Api

/-- The warning is that the identifier of an operation was made. -/
def Warning.isSynthesized : Warning → Bool
  | .operationIdSynthesized .. => true
  | _ => false

theorem Warning.isSynthesized_of_isDegraded {warning : Warning} (h : warning.isDegraded = true) :
    warning.isSynthesized = false := by
  cases warning with
  | schemaDegraded => rfl
  | enumDegraded => rfl
  | operationIdSynthesized => exact absurd h Bool.false_ne_true
  | responseFiltered => rfl

namespace Api.OperationEntry

/-- The warning about an operation whose identifier was made. -/
def warning (entry : OperationEntry) : Warning :=
  .operationIdSynthesized entry.method.upperName entry.path entry.id

/-- The reference that the output of an operation is declared under. -/
def outputReference (entry : OperationEntry) : String :=
  Pointer.join ["operations", entry.id, "output"]

end Api.OperationEntry

namespace FragmentSet

/-- The identifiers of a set are those of the operations, in order and without repetitions; the
    warnings about identifiers that were made are about these operations, in order; and the outputs of
    the operations are declared. -/
structure Lists (entries : List OperationEntry) (set : FragmentSet) : Prop where
  operations : set.operations = Text.distinct (entries.map (·.id))
  warnings : set.warnings.filter Warning.isSynthesized =
    (entries.filter (·.synthesized)).map OperationEntry.warning
  outputs : ∀ entry ∈ entries, set.Declared entry.outputReference

variable {set other : FragmentSet} {entries others : List OperationEntry} {entry : OperationEntry}

theorem lists_empty : ({} : FragmentSet).Lists [] :=
  ⟨rfl, rfl, fun _ hentry => absurd hentry List.not_mem_nil⟩

theorem Lists.push (h : set.Lists entries) (fragment : Fragment) :
    (set.push fragment).Lists entries :=
  ⟨h.operations, h.warnings, fun entry hentry => (h.outputs entry hentry).push fragment⟩

theorem Lists.warn (h : set.Lists entries) {warning : Warning}
    (hwarning : warning.isSynthesized = false) : (set.warn warning).Lists entries := by
  refine ⟨h.operations, ?_, h.outputs⟩
  have hfilter : [warning].filter Warning.isSynthesized = [] := by
    rw [List.filter_cons_of_neg (by simpa using hwarning), List.filter_nil]
  show (set.warnings ++ [warning]).filter Warning.isSynthesized = _
  rw [List.filter_append, hfilter, List.append_nil, h.warnings]

/-- Sets that are put together list their operations one after the other. -/
theorem Lists.extend (h : set.Lists entries) (hother : other.Lists others) :
    (set.extend other).Lists (entries ++ others) where
  operations := by
    show Text.insertAllNew set.operations other.operations = _
    rw [h.operations, hother.operations, List.map_append, Text.distinct_append]
  warnings := by
    show (set.warnings ++ other.warnings).filter Warning.isSynthesized = _
    rw [List.filter_append, h.warnings, hother.warnings, List.filter_append, List.map_append]
  outputs entry hentry := by
    rcases List.mem_append.1 hentry with hentry | hentry
    · exact (h.outputs entry hentry).extend other
    · exact declared_extend (hother.outputs entry hentry)

/-- A set without operations may be added anywhere. -/
theorem Lists.extend_quiet (h : set.Lists entries) (hother : other.Lists []) :
    (set.extend other).Lists entries := by
  have hextend := h.extend hother
  rwa [List.append_nil] at hextend

theorem Lists.mem_operations (h : set.Lists entries) (hentry : entry ∈ entries) :
    entry.id ∈ set.operations := by
  rw [h.operations, Text.mem_distinct_iff]
  exact List.mem_map_of_mem hentry

theorem Lists.mem_warnings (h : set.Lists entries) (hentry : entry ∈ entries)
    (hsynthesized : entry.synthesized = true) : entry.warning ∈ set.warnings := by
  have hmem : entry.warning ∈ (entries.filter (·.synthesized)).map OperationEntry.warning :=
    List.mem_map_of_mem (List.mem_filter.2 ⟨hentry, hsynthesized⟩)
  rw [← h.warnings] at hmem
  exact List.mem_of_mem_filter hmem

end FragmentSet

/-! ### Declarations -/

/-- The typings of schemas bring no operation. -/
def Typing.Quiet (typing : Typing) : Prop :=
  typing.emitted.Lists []

open FragmentSet (lists_empty)

/-- All rules for typings keep them quiet. -/
theorem Schema.quietTypingRules (final : EnumNames) (baseName : String) (limit : Nat) :
    TypingRules final baseName limit (fun _ => True) Typing.Quiet where
  inner _ _ := trivial
  plain _ _ := lists_empty
  degraded _ hdegraded := lists_empty.warn (Warning.isSynthesized_of_isDegraded hdegraded)
  reference _ _ := lists_empty.push _
  enum _ _ _ _ := lists_empty.push _
  united h := h
  parts _ _ h := Register.foldl_extend_induction (P := FragmentSet.Lists []) lists_empty
    fun _ typing htyping hset => hset.extend_quiet (h typing htyping)

namespace Api

/-- All rules for declarations keep a set from listing an operation.  Of the warnings, only those about
    operations count, and a response that is left out raises no such one. -/
theorem quietRules (final : EnumNames) :
    DeclarationRules final (fun _ => True) False (FragmentSet.Lists []) where
  empty := lists_empty
  announce _ h := h.push _
  push h _ _ := h.push _
  extend h hother := h.extend_quiet hother
  filtered _ _ h := h.warn rfl
  schema schema context := Run.givesWithin_map
    (Schema.TypingRules.givesWithin_typing schema context none (Schema.quietTypingRules final _ _) trivial)
    fun _ htyping => htyping

namespace Walk

variable {walk : Walk} {operation : Site} {location operationId : String} {facts : OperationFacts}

theorem lists_operationInput {shared : List Located} :
    (walk.operationInput operation location facts shared).Gives (FragmentSet.Lists []) :=
  Run.gives_of_givesWithin fun final =>
    (quietRules final).givesWithin_operationInput (fun _ _ _ => trivial) trivial
        False.elim

/-- The output of an operation is declared, whatever its responses are. -/
theorem lists_operationOutput :
    (walk.operationOutput operation location operationId facts).Gives fun set =>
      set.Lists [] ∧ set.Declared (operation.child "output" "Output").reference := by
  have hlists : (walk.operationOutput operation location operationId facts).Gives
      (FragmentSet.Lists []) :=
    Run.gives_of_givesWithin fun final =>
      (quietRules final).givesWithin_operationOutput (fun _ _ _ => trivial) trivial
        False.elim
  -- The output itself is pushed last, so it is declared whatever the responses were.
  have hdeclared : (walk.operationOutput operation location operationId facts).Gives
      (FragmentSet.Declared · (operation.child "output" "Output").reference) := by
    unfold operationOutput
    refine Run.gives_bind (P := fun _ => True) (fun _ _ _ _ => trivial) fun done _ => ?_
    exact Run.gives_pure (FragmentSet.declared_push_self rfl)
  intro names set names' hyields
  exact ⟨hlists names set names' hyields, hdeclared names set names' hyields⟩

end Walk

end Api

end Typewright
