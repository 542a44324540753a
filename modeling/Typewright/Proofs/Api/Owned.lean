import Typewright.Proofs.Api.Visits
import Typewright.Proofs.Schema.Owned

/-!
# What the parts of a walk own

The fragments of an operation stand below the reference of the operation, those of an expansion under
the reference that is expanded or, if this is a response, below it; besides, there are the enums that
schemas bring up, and the operations of path items and callbacks.  All rules for declarations keep what
is owned (`ownedRules`), and so do all rules for visits (`Walk.operatedRules`); `givesWithin_expand` is
about expansions.
-/

namespace Typewright

open FragmentSet (owned_empty)

namespace Api

/-- Declarations own the references that they are made under. -/
theorem ownedRules (final : EnumNames) (own : String → Prop) :
    DeclarationRules final own False (FragmentSet.Owned final own) where
  empty := owned_empty
  announce reference h := h.announce reference
  push h hown _ := h.push hown
  extend h hother := h.extend hother
  filtered _ _ h := h.warn _
  schema schema context := (Schema.givesWithin_unitedTyping schema context none).mono
    fun _ htyping => htyping.mono fun _ hfalse => hfalse.elim

namespace Walk

/-! ### Operations -/

/-- The reference is that of an operation or stands below it. -/
def InOperation (id reference : String) : Prop :=
  ["operations", id] <+: Pointer.split reference

theorem InOperation.child {id reference : String} (h : InOperation id reference) (segment : String) :
    InOperation id (Pointer.child reference segment) := by
  unfold InOperation
  rw [Pointer.split_child_eq]
  exact h.trans (List.prefix_append _ _)

theorem inOperation_operationSite (walk : Walk) {id : String} (h : id ≠ "") :
    InOperation id (walk.operationSite id).reference := by
  have hsplit : Pointer.split (walk.operationSite id).reference = ["operations", id] :=
    Pointer.split_join (by simpa using h)
  exact ⟨[], hsplit.symm⟩

theorem ownsBelow_inOperation (id : String) : OwnsBelow (InOperation id) :=
  fun _ segment h => h.child segment

end Walk

end Api

end Typewright

/-! ### Path items and callbacks -/

namespace Typewright.FragmentSet

variable {final : EnumNames} {set other : FragmentSet}

/-- The concrete fragments belong to operations that were met, or declare enums. -/
def Operated (final : EnumNames) (set : FragmentSet) : Prop :=
  set.Owned final fun reference => ∃ id ∈ set.operations, Api.Walk.InOperation id reference

theorem operated_of_fragments_eq_nil (h : set.fragments = []) : Operated final set := by
  obtain ⟨fragments, warnings, operations⟩ := set
  obtain rfl : fragments = [] := h
  exact owned_empty

theorem Operated.extend (h : set.Operated final) (hother : other.Operated final) :
    (set.extend other).Operated final := by
  refine Owned.extend (h.mono ?_) (hother.mono ?_)
  · exact fun reference ⟨id, hid, hin⟩ => ⟨id, mem_operations_extend.2 (.inl hid), hin⟩
  · exact fun reference ⟨id, hid, hin⟩ => ⟨id, mem_operations_extend.2 (.inr hid), hin⟩

/-- What belongs to an operation that was met is added. -/
theorem Operated.extend_of_owned {id : String} (h : set.Operated final) (hid : id ∈ set.operations)
    (hother : other.Owned final (Api.Walk.InOperation id)) : (set.extend other).Operated final := by
  refine Owned.extend (h.mono ?_) (hother.mono ?_)
  · exact fun reference ⟨id, hid, hin⟩ => ⟨id, mem_operations_extend.2 (.inl hid), hin⟩
  · exact fun reference hin => ⟨id, mem_operations_extend.2 (.inl hid), hin⟩

end Typewright.FragmentSet

namespace Typewright.Api.Walk

open FragmentSet (owned_empty operated_of_fragments_eq_nil Operated)

open Run (GivesWithin givesWithin_bind_liftExcept)

variable {final : EnumNames}

/-- Visits own the operations that are met. -/
theorem operatedRules (final : EnumNames) (walk : Walk) :
    VisitRules final walk (fun id => FragmentSet.Owned final (InOperation id)) (Operated final) where
  plain h := operated_of_fragments_eq_nil h
  announce reference h := h.announce reference
  extend h hother := h.extend hother
  adopt h hid hother := h.extend_of_owned hid hother
  input {id} _ _ _ hid := (ownedRules final (InOperation id)).givesWithin_operationInput
    (ownsBelow_inOperation id) (inOperation_operationSite walk hid) False.elim
  output {id} _ _ _ hid := (ownedRules final (InOperation id)).givesWithin_operationOutput
    (ownsBelow_inOperation id) (inOperation_operationSite walk hid) False.elim

/-! ### Starting points and expansions -/

theorem owned_declaredSchemas {own : String → Prop} (document : Json) (kind : DocumentKind) :
    (declaredSchemas document kind).Owned final own := by
  refine ⟨Fragment.nodup_combine List.nodup_nil, fun fragment hfragment hconcrete => ?_⟩
  obtain ⟨reference, -, rfl⟩ :=
    List.mem_map.1 ((Fragment.mem_combine hfragment).resolve_left List.not_mem_nil)
  exact absurd hconcrete (by simp [Fragment.isAssumed])

/-- A document that describes an interface starts from its operations. -/
theorem givesWithin_documentFragments (walk : Walk) :
    GivesWithin final walk.documentFragments (Operated final) :=
  (operatedRules final walk).givesWithin_documentFragments (owned_declaredSchemas _ _)

/-- A schema document starts from the statement of its root. -/
theorem givesWithin_rootFragments (walk : Walk) :
    GivesWithin final walk.rootFragments
      (FragmentSet.Owned final fun reference => reference = Pointer.root) :=
  (ownedRules final _).givesWithin_rootFragments rfl (owned_declaredSchemas _ _)

/-- The reference is that of a response among the components, and the other one stands below it. -/
def BelowResponse (reference other : String) : Prop :=
  ∃ name first rest, Pointer.split reference = [componentsKey, "responses", name] ∧
    Pointer.split other = componentsKey :: "responses" :: name :: first :: rest

/-- What an expansion owns: the reference that is expanded, what stands below it if it is a response,
    and the operations that were met. -/
def Claims (reference : String) (operations : List String) (own : String) : Prop :=
  own = reference ∨ BelowResponse reference own ∨ ∃ id ∈ operations, InOperation id own

theorem ownsResponse_claims {reference name : String} (operations : List String)
    (hsplit : Pointer.split reference = [componentsKey, "responses", name]) (path : List String) :
    OwnsResponse (Claims reference operations) { reference, path } := by
  have hbelow {segment : String} (hsegment : segment ≠ "") :
      Pointer.split (Pointer.child reference segment) =
        [componentsKey, "responses", name, segment] := by
    rw [Pointer.split_child reference hsegment, hsplit]
    rfl
  refine ⟨.inl rfl, .inr (.inl ⟨name, "body", [], hsplit, hbelow (by decide)⟩),
    .inr (.inl ⟨name, "headers", [], hsplit, hbelow (by decide)⟩), fun header => ?_⟩
  -- A header without a name has the segments of the headers themselves.
  refine .inr (.inl ⟨name, "headers", [header].filter (· ≠ ""), hsplit, ?_⟩)
  change Pointer.split (Pointer.child (Pointer.child reference "headers") header) = _
  rw [Pointer.split_child_eq, hbelow (by decide)]
  rfl

/-- The concrete fragments of an expansion are among those that it owns. -/
theorem givesWithin_expand (walk : Walk) (reference : String) :
    GivesWithin final (walk.expand reference) fun set =>
      set.Owned final (Claims reference set.operations) := by
  -- What is expanded owns its reference, a response also those below it, and a visit those of its
  -- operations.
  have hclaims {run : Run FragmentSet}
      (hrun : GivesWithin final run (FragmentSet.Owned final fun own => own = reference)) :
      GivesWithin final run fun set => set.Owned final (Claims reference set.operations) :=
    hrun.mono fun set hset => hset.mono fun _ hown => .inl hown
  have hvisited {run : Run FragmentSet} (hrun : GivesWithin final run (Operated final)) :
      GivesWithin final run fun set => set.Owned final (Claims reference set.operations) :=
    hrun.mono fun set hset => hset.mono fun _ hown => .inr (.inr hown)
  have hrules := ownedRules final fun own => own = reference
  unfold expand
  refine givesWithin_bind_liftExcept fun value _ => ?_
  simp only
  split
  · exact hclaims (hrules.givesWithin_requestBodyDeclaration rfl)
  · exact hclaims (hrules.givesWithin_parameterDeclaration rfl)
  · next hbucket =>
    obtain ⟨name, hsplit⟩ := split_of_bucketOf hbucket (by decide)
    refine ((ownedRules final (Claims reference [])).givesWithin_responseDeclaration
      (ownsResponse_claims [] hsplit _)).mono fun set hset => hset.mono fun other hown => ?_
    exact hown.imp_right (Or.imp_right fun ⟨id, hid, _⟩ => absurd hid List.not_mem_nil)
  · exact hclaims (hrules.givesWithin_headerDeclaration rfl)
  · exact hvisited ((operatedRules final walk).givesWithin_visitCallback _ _ fun id hid =>
      from_callback hid)
  · exact hvisited ((operatedRules final walk).givesWithin_visitPathItem _ _ _ fun id hid =>
      from_pathItem hid)
  · exact hclaims (hrules.givesWithin_schemaDeclaration rfl)

end Typewright.Api.Walk
