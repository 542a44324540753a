import Mathlib.Algebra.Ring.Nat
import Mathlib.Data.Finset.Card
import Typewright.Proofs.Api.Registered

/-!
# The expansion of references comes to an end

`Walk.Passes` follows the passes of an expansion without a bound on their number.  Every reference
that comes up is assumed at the start or written in the document, and none is expanded twice, so the
passes end (`exists_passes`), and `expandFixedPoint` does just what they do.  When nothing is pending
any more, every reference that came up is declared, but for those of path items and callbacks.
-/

namespace Typewright.Api.Walk

variable {walk : Walk}

/-! ### One expansion -/

/-- The register that lets those references be announced, each of them under any path. -/
def announcing (allowed : String → Prop) : Register where
  announced := allowed
  names _ _ := True
  declares _ _ := True
  members _ := True

section Announcing

variable {allowed : String → Prop}

theorem suitsOperations_announcing (allowed : String → Prop) (walk : Walk) :
    (announcing allowed).SuitsOperations walk :=
  ⟨fun _ _ => ⟨trivial, trivial⟩, fun _ _ => ⟨trivial, fun _ => trivial, trivial, trivial, trivial⟩⟩

theorem takesResponse_announcing (allowed : String → Prop) (site : Site) :
    (announcing allowed).TakesResponse site :=
  ⟨trivial, trivial, trivial, fun _ => trivial⟩

theorem coversIn_announcing {value : Json}
    (h : ∀ reference ∈ Pointer.references value, allowed reference) :
    (announcing allowed).CoversIn walk value :=
  fun _ hreference => ⟨h _ hreference, trivial⟩

/-- If all references of a value may be announced, what stands inside it may come up. -/
theorem takes_announcing {value : Json} {part : Part} (hpart : part.From value)
    (h : ∀ reference ∈ Pointer.references value, allowed reference) :
    (announcing allowed).Takes walk part := by
  have hcovers {inner : Json} (hinside : inner.Inside value) :
      (announcing allowed).CoversIn walk inner :=
    coversIn_announcing fun _ hreference =>
      h _ (Pointer.references_subset_of_inside hinside hreference)
  cases part with
  | link reference => exact h _ hpart
  | operation id => exact hpart
  | parameter inner => exact ⟨hcovers hpart, fun _ _ _ => ⟨trivial, trivial⟩⟩
  | body inner => exact hcovers hpart
  | response status inner =>
    obtain ⟨fields, hfields, hmem⟩ := hpart
    exact ⟨hcovers (.trans (.field hmem) hfields),
      fun _ _ => ⟨trivial, takesResponse_announcing allowed _, trivial⟩⟩

theorem takesTarget_announcing {reference : String} {value : Json}
    (hresolve : Pointer.resolve walk.document (Pointer.split reference) = .ok value)
    (h : ∀ reference ∈ Pointer.references walk.document, allowed reference) :
    (announcing allowed).TakesTarget walk reference value := by
  have hvalue (other : String) (hother : other ∈ Pointer.references value) : allowed other :=
    h other (Pointer.references_subset_of_resolve hresolve hother)
  unfold Register.TakesTarget
  split
  · exact fun part hpart => takes_announcing (from_callback hpart) hvalue
  · exact fun part hpart => takes_announcing (from_pathItem hpart) hvalue
  · exact ⟨coversIn_announcing hvalue, takesResponse_announcing allowed _⟩

end Announcing

/-- An expansion brings up references of the document only, and declares the reference that is
    expanded unless it addresses a path item or a callback. -/
theorem expand_emits {reference : String} {names names' : EnumNames} {emitted : FragmentSet}
    (h : (walk.expand reference).Yields names emitted names') :
    (∀ other ∈ emitted.assumedReferences, other ∈ Pointer.references walk.document) ∧
      (¬ AddressesPaths reference → emitted.Declared reference) := by
  obtain ⟨hregistered, hdeclared⟩ := Register.gives_expand
    (suitsOperations_announcing (· ∈ Pointer.references walk.document) walk)
    (fun _ hvalue => takesTarget_announcing hvalue fun _ hreference => hreference)
    names emitted names' h
  refine ⟨fun other hother => ?_, hdeclared⟩
  exact hregistered.allowed _ (FragmentSet.mem_assumedReferences.1 hother)

/-! ### One pass -/

/-- A reference that was expanded, with the set that came of it. -/
structure Expansion where
  reference : String
  emitted : FragmentSet

/-- The references that were expanded. -/
def expandedIn (expansions : List Expansion) : List String :=
  expansions.map Expansion.reference

theorem expandedIn_append (first others : List Expansion) :
    expandedIn (first ++ others) = expandedIn first ++ expandedIn others :=
  List.map_append

/-- References are expanded one after the other, and what comes of them is added to the set. -/
inductive Expands (walk : Walk) :
    FragmentSet → EnumNames → List Expansion → FragmentSet → EnumNames → Prop where
  | nil (set : FragmentSet) (names : EnumNames) : Expands walk set names [] set names
  | cons {set set' emitted : FragmentSet} {names names' names'' : EnumNames} {reference : String}
      {rest : List Expansion} (first : (walk.expand reference).Yields names emitted names')
      (others : Expands walk (set.extend emitted) names' rest set' names'') :
      Expands walk set names ({ reference, emitted } :: rest) set' names''

/-- The reference is assumed by the set, or by what came of an expansion. -/
def Announced (set : FragmentSet) (expansions : List Expansion) (reference : String) : Prop :=
  reference ∈ set.assumedReferences ∨
    ∃ expansion ∈ expansions, reference ∈ expansion.emitted.assumedReferences

section Expands

variable {set set' : FragmentSet} {names names' : EnumNames} {expansions : List Expansion}

theorem yields_expandAll_iff {references : List String} :
    (walk.expandAll references set).Yields names set' names' ↔
      ∃ expansions, expandedIn expansions = references ∧
        walk.Expands set names expansions set' names' := by
  induction references generalizing set names with
  | nil =>
    unfold expandAll
    rw [List.foldlM_nil, Run.yields_pure_iff]
    constructor
    · rintro ⟨rfl, rfl⟩
      exact ⟨[], rfl, .nil _ _⟩
    · rintro ⟨expansions, hexpanded, h⟩
      cases h with
      | nil => exact ⟨rfl, rfl⟩
      | cons => exact absurd hexpanded (List.cons_ne_nil _ _)
  | cons reference references ih =>
    -- The fold expands the first reference and goes on from the set that it extended.
    have hunfold : walk.expandAll (reference :: references) set =
        (do let emitted ← walk.expand reference; walk.expandAll references (set.extend emitted)) := by
      unfold expandAll
      rw [List.foldlM_cons, bind_assoc]
      simp only [pure_bind]
    rw [hunfold, Run.yields_bind_iff]
    constructor
    · rintro ⟨emitted, names₁, hfirst, hothers⟩
      obtain ⟨rest, hrest, hexpands⟩ := ih.1 hothers
      exact ⟨{ reference, emitted } :: rest, congrArg (reference :: ·) hrest, .cons hfirst hexpands⟩
    · rintro ⟨expansions, hexpanded, h⟩
      cases h with
      | nil => exact absurd hexpanded.symm (List.cons_ne_nil _ _)
      | cons first others =>
        obtain ⟨rfl, hrest⟩ := List.cons.inj hexpanded
        exact ⟨_, _, first, ih.2 ⟨_, hrest, others⟩⟩

theorem Expands.nodup (h : walk.Expands set names expansions set' names')
    (hset : (set.fragments.map Fragment.reference).Nodup) :
    (set'.fragments.map Fragment.reference).Nodup := by
  induction h with
  | nil => exact hset
  | cons _ _ ih => exact ih (Fragment.nodup_combine hset)

theorem Expands.stored (h : walk.Expands set names expansions set' names') {reference : String}
    (hreference : set.Stored reference) : set'.Stored reference := by
  induction h with
  | nil => exact hreference
  | cons _ _ ih => exact ih (hreference.extend _)

theorem Expands.declared (h : walk.Expands set names expansions set' names') {reference : String}
    (hreference : set.Declared reference) : set'.Declared reference := by
  induction h with
  | nil => exact hreference
  | cons _ _ ih => exact ih (hreference.extend _)

/-- Every reference that came up is stored. -/
theorem Expands.stored_of_announced (h : walk.Expands set names expansions set' names')
    {reference : String} (hreference : Announced set expansions reference) :
    set'.Stored reference := by
  induction h with
  | nil =>
    rcases hreference with hreference | ⟨_, hmem, _⟩
    · exact List.mem_map_of_mem (FragmentSet.mem_assumedReferences.1 hreference)
    · exact absurd hmem List.not_mem_nil
  | cons first others ih =>
    rcases hreference with hreference | ⟨expansion, hmem, hreference⟩
    · refine others.stored (FragmentSet.Stored.extend ?_ _)
      exact List.mem_map_of_mem (FragmentSet.mem_assumedReferences.1 hreference)
    · rcases List.mem_cons.1 hmem with rfl | hmem
      · refine others.stored (FragmentSet.stored_extend ?_)
        exact List.mem_map_of_mem (FragmentSet.mem_assumedReferences.1 hreference)
      · exact ih (.inr ⟨expansion, hmem, hreference⟩)

/-- Nothing is assumed afterwards that did not come up. -/
theorem Expands.announced (h : walk.Expands set names expansions set' names') {reference : String}
    (hreference : reference ∈ set'.assumedReferences) : Announced set expansions reference := by
  induction h with
  | nil => exact .inl hreference
  | cons first others ih =>
    rcases ih hreference with hassumed | ⟨expansion, hmem, hassumed⟩
    · rcases Fragment.mem_combine (FragmentSet.mem_assumedReferences.1 hassumed) with hmem | hmem
      · exact .inl (FragmentSet.mem_assumedReferences.2 hmem)
      · exact .inr ⟨_, List.mem_cons_self, FragmentSet.mem_assumedReferences.2 hmem⟩
    · exact .inr ⟨expansion, List.mem_cons_of_mem _ hmem, hassumed⟩

theorem Expands.mem_references (h : walk.Expands set names expansions set' names')
    {expansion : Expansion} (hmem : expansion ∈ expansions) {reference : String}
    (hreference : reference ∈ expansion.emitted.assumedReferences) :
    reference ∈ Pointer.references walk.document := by
  induction h with
  | nil => exact absurd hmem List.not_mem_nil
  | cons first others ih =>
    rcases List.mem_cons.1 hmem with rfl | hmem
    · exact (expand_emits first).1 reference hreference
    · exact ih hmem

/-- What was expanded is declared, unless it addresses a path item or a callback. -/
theorem Expands.declared_of_expanded (h : walk.Expands set names expansions set' names')
    {reference : String} (hreference : reference ∈ expandedIn expansions)
    (hpaths : ¬ AddressesPaths reference) : set'.Declared reference := by
  induction h with
  | nil => exact absurd hreference List.not_mem_nil
  | cons first others ih =>
    rcases List.mem_cons.1 hreference with rfl | hreference
    · exact others.declared (FragmentSet.declared_extend ((expand_emits first).2 hpaths))
    · exact ih hreference

/-- What a set satisfies and putting sets together keeps, it satisfies after expansions that give it. -/
theorem Expands.keeps {P : FragmentSet → Prop} (h : walk.Expands set names expansions set' names')
    (hextend : ∀ {set other}, P set → P other → P (set.extend other)) (hset : P set)
    (hexpand : ∀ expansion ∈ expansions, (walk.expand expansion.reference).Gives P) : P set' := by
  induction h with
  | nil => exact hset
  | cons first _ ih =>
    have hfirst := hexpand _ List.mem_cons_self _ _ _ first
    exact ih (hextend hset hfirst) fun expansion hmem =>
      hexpand expansion (List.mem_cons_of_mem _ hmem)

end Expands

/-! ### All passes -/

/-- Pass after pass, the pending references are expanded; `expanded` are those expanded before. -/
inductive Passes (walk : Walk) : List String → FragmentSet → EnumNames → List (List Expansion) →
    FragmentSet → EnumNames → Prop where
  | nil (expanded : List String) (set : FragmentSet) (names : EnumNames) :
      Passes walk expanded set names [] set names
  | cons {expanded : List String} {set set' set'' : FragmentSet} {names names' names'' : EnumNames}
      {pass : List Expansion} {passes : List (List Expansion)}
      (pending : expandedIn pass = pending expanded set) (nonempty : pass ≠ [])
      (first : walk.Expands set names pass set' names')
      (others : Passes walk (expanded ++ expandedIn pass) set' names' passes set'' names'') :
      Passes walk expanded set names (pass :: passes) set'' names''

/-- What holds between two passes: references are distinct in the set and among the expanded ones,
    all of them are known, and what was expanded is declared if it can be. -/
structure Consistent (known : Finset String) (expanded : List String) (set : FragmentSet) :
    Prop where
  nodup : (set.fragments.map Fragment.reference).Nodup
  knownAssumed : ∀ reference ∈ set.assumedReferences, reference ∈ known
  nodupExpanded : expanded.Nodup
  knownExpanded : ∀ reference ∈ expanded, reference ∈ known
  declared : ∀ reference ∈ expanded, ¬ AddressesPaths reference → set.Declared reference

section Passes

variable {known : Finset String} {expanded : List String} {set set' : FragmentSet}
  {names names' : EnumNames} {pass : List Expansion} {passes : List (List Expansion)}
  {reference : String}

theorem mem_pending :
    reference ∈ pending expanded set ↔ reference ∈ set.assumedReferences ∧ reference ∉ expanded := by
  simp [pending]

theorem Consistent.nodup_append_pending (h : Consistent known expanded set) :
    (expanded ++ pending expanded set).Nodup := by
  have hassumed : set.assumedReferences.Nodup := h.nodup.sublist (List.filter_sublist.map _)
  refine List.nodup_append.2 ⟨h.nodupExpanded, hassumed.filter _, ?_⟩
  rintro reference hexpanded _ hpending rfl
  exact (mem_pending.1 hpending).2 hexpanded

theorem Consistent.pending_subset (h : Consistent known expanded set) :
    (pending expanded set).toFinset ⊆ known \ expanded.toFinset := by
  intro reference hreference
  rw [List.mem_toFinset, mem_pending] at hreference
  rw [Finset.mem_sdiff, List.mem_toFinset]
  exact ⟨h.knownAssumed reference hreference.1, hreference.2⟩

/-- A pass keeps everything consistent. -/
theorem Consistent.after_pass (h : Consistent known expanded set)
    (hknown : ∀ reference ∈ Pointer.references walk.document, reference ∈ known)
    (hpending : expandedIn pass = pending expanded set)
    (hpass : walk.Expands set names pass set' names') :
    Consistent known (expanded ++ expandedIn pass) set' where
  nodup := hpass.nodup h.nodup
  knownAssumed reference hreference := by
    -- An assumption was there before the pass, or comes of a reference that stands in the document.
    rcases hpass.announced hreference with hassumed | ⟨expansion, hmem, hassumed⟩
    · exact h.knownAssumed reference hassumed
    · exact hknown reference (hpass.mem_references hmem hassumed)
  nodupExpanded := hpending ▸ h.nodup_append_pending
  knownExpanded reference hreference := by
    rcases List.mem_append.1 hreference with hreference | hreference
    · exact h.knownExpanded reference hreference
    · rw [hpending, mem_pending] at hreference
      exact h.knownAssumed reference hreference.1
  declared reference hreference hpaths := by
    rcases List.mem_append.1 hreference with hreference | hreference
    · exact hpass.declared (h.declared reference hreference hpaths)
    · exact hpass.declared_of_expanded hreference hpaths

/-- All passes keep everything consistent. -/
theorem Passes.consistent (h : walk.Passes expanded set names passes set' names')
    (hknown : ∀ reference ∈ Pointer.references walk.document, reference ∈ known)
    (hset : Consistent known expanded set) :
    Consistent known (expanded ++ expandedIn passes.flatten) set' := by
  induction h with
  | nil => simpa [expandedIn] using hset
  | cons hpending _ hpass _ ih =>
    have := ih (hset.after_pass hknown hpending hpass)
    rwa [List.append_assoc, ← expandedIn_append, ← List.flatten_cons] at this

theorem Passes.stored (h : walk.Passes expanded set names passes set' names')
    (hreference : set.Stored reference) : set'.Stored reference := by
  induction h with
  | nil => exact hreference
  | cons _ _ hpass _ ih => exact ih (hpass.stored hreference)

/-- Every reference that came up in a pass is stored in the end. -/
theorem Passes.stored_of_announced (h : walk.Passes expanded set names passes set' names')
    (hreference : Announced set passes.flatten reference) : set'.Stored reference := by
  induction h with
  | nil expanded set names =>
    have hnil : walk.Expands set names [] set names := .nil set names
    exact hnil.stored_of_announced hreference
  | cons _ _ hpass hothers ih =>
    rcases hreference with hassumed | ⟨expansion, hmem, hassumed⟩
    · exact hothers.stored (hpass.stored_of_announced (.inl hassumed))
    · rw [List.flatten_cons, List.mem_append] at hmem
      rcases hmem with hmem | hmem
      · exact hothers.stored (hpass.stored_of_announced (.inr ⟨expansion, hmem, hassumed⟩))
      · exact ih (.inr ⟨expansion, hmem, hassumed⟩)

/-- What is expanded came up before. -/
theorem Passes.announced_of_expanded (h : walk.Passes expanded set names passes set' names')
    (hreference : reference ∈ expandedIn passes.flatten) :
    Announced set passes.flatten reference := by
  induction h with
  | nil => exact absurd hreference List.not_mem_nil
  | cons hpending _ hpass _ ih =>
    rw [List.flatten_cons, expandedIn_append, List.mem_append] at hreference
    rw [List.flatten_cons]
    rcases hreference with hreference | hreference
    · rw [hpending, mem_pending] at hreference
      exact .inl hreference.1
    · rcases ih hreference with hassumed | ⟨expansion, hmem, hassumed⟩
      -- What is assumed when the later passes start may have come up in this one.
      · rcases hpass.announced hassumed with hassumed | ⟨expansion, hmem, hassumed⟩
        · exact .inl hassumed
        · exact .inr ⟨expansion, List.mem_append_left _ hmem, hassumed⟩
      · exact .inr ⟨expansion, List.mem_append_right _ hmem, hassumed⟩

/-- What a set satisfies and putting sets together keeps, it satisfies after all passes, if the
    expansion of every reference that such a set assumes gives it. -/
theorem Passes.keeps {P : FragmentSet → Prop} {allowed : String → Prop}
    (h : walk.Passes expanded set names passes set' names')
    (hassumed : ∀ {set}, P set → ∀ reference ∈ set.assumedReferences, allowed reference)
    (hextend : ∀ {set other}, P set → P other → P (set.extend other)) (hset : P set)
    (hexpand : ∀ reference, allowed reference → (walk.expand reference).Gives P) : P set' := by
  induction h with
  | nil => exact hset
  | cons hpending _ hpass _ ih =>
    refine ih (hpass.keeps hextend hset fun expansion hmem => hexpand _ ?_)
    -- What a pass expands is assumed in the set that it starts from.
    have hreference : expansion.reference ∈ expandedIn _ := List.mem_map_of_mem hmem
    rw [hpending, mem_pending] at hreference
    exact hassumed hset _ hreference.1

/-- If the expansion of whatever is announced keeps to a register, so do all passes. -/
theorem Passes.registered {R : Register} (h : walk.Passes expanded set names passes set' names')
    (hset : R.Registered set)
    (hexpand : ∀ reference, R.announced reference → (walk.expand reference).Gives R.Registered) :
    R.Registered set' :=
  h.keeps (fun hset _ hassumed => hset.allowed _ (FragmentSet.mem_assumedReferences.1 hassumed))
    (fun hset hother => hset.extend hother) hset hexpand

/-- A pass expands at least one reference. -/
theorem Passes.length_le (h : walk.Passes expanded set names passes set' names') :
    passes.length ≤ (expandedIn passes.flatten).length := by
  induction h with
  | nil => exact Nat.zero_le _
  | cons _ hne _ _ ih =>
    have := List.length_pos_of_ne_nil hne
    simp only [expandedIn, List.length_map, List.flatten_cons, List.length_append,
      List.length_cons] at ih ⊢
    omega

/-- The passes end: nothing is pending any more, or an expansion fails. -/
theorem exists_passes (names : EnumNames) (hset : Consistent known expanded set)
    (hknown : ∀ reference ∈ Pointer.references walk.document, reference ∈ known) :
    ∃ passes set' names', walk.Passes expanded set names passes set' names' ∧
      (pending (expanded ++ expandedIn passes.flatten) set' = [] ∨
        ∃ failure names'', (walk.expandAll (pending (expanded ++ expandedIn passes.flatten) set')
          set').outcome names' = (.error failure, names'')) := by
  -- Every pass leaves fewer references that are known and not yet expanded.
  induction hcard : (known \ expanded.toFinset).card using Nat.strongRecOn
    generalizing expanded set names with
  | _ count ih =>
    subst hcard
    have hstart : expanded ++ expandedIn ([] : List (List Expansion)).flatten = expanded :=
      List.append_nil _
    by_cases hempty : pending expanded set = []
    · exact ⟨[], set, names, .nil _ _ _, .inl (hstart.symm ▸ hempty)⟩
    cases hall : (walk.expandAll (pending expanded set) set).outcome names with
    | mk result names₁ =>
      cases result with
      | error failure =>
        exact ⟨[], set, names, .nil _ _ _, .inr ⟨failure, names₁, hstart.symm ▸ hall⟩⟩
      | ok set₁ =>
        obtain ⟨pass, hpending, hpass⟩ := yields_expandAll_iff.1 hall
        have hne : pass ≠ [] := by
          rintro rfl
          exact hempty hpending.symm
        have hconsistent := hset.after_pass hknown hpending hpass
        -- The references of the pass are known and were not expanded before.
        have hless : (known \ (expanded ++ expandedIn pass).toFinset).card <
            (known \ expanded.toFinset).card := by
          obtain ⟨reference, hreference⟩ := List.exists_mem_of_ne_nil _ hempty
          refine Finset.card_lt_card (Finset.ssubset_iff_of_subset ?_ |>.2 ⟨reference, ?_, ?_⟩)
          · refine Finset.sdiff_subset_sdiff (Finset.Subset.refl _) ?_
            rw [List.toFinset_append]
            exact Finset.subset_union_left
          · exact hset.pending_subset (List.mem_toFinset.2 hreference)
          · rw [Finset.mem_sdiff, not_and, not_not, List.mem_toFinset, hpending]
            exact fun _ => List.mem_append_right _ hreference
        obtain ⟨passes, set', names', hpasses, hend⟩ := ih _ hless names₁ hconsistent rfl
        refine ⟨pass :: passes, set', names', .cons hpending hne hpass hpasses, ?_⟩
        rwa [List.flatten_cons, expandedIn_append, ← List.append_assoc]

/-! ### The bounded loop -/

theorem expandPasses_of_pending_eq_nil (fuel : Nat) (stats : Statistics)
    (h : pending expanded set = []) :
    walk.expandPasses fuel expanded set stats = pure (set, stats) := by
  unfold expandPasses
  simp only [h]

theorem expandPasses_succ (fuel : Nat) (stats : Statistics) (h : pending expanded set ≠ []) :
    walk.expandPasses (fuel + 1) expanded set stats = (do
      let set' ← walk.expandAll (pending expanded set) set
      walk.expandPasses fuel (expanded ++ pending expanded set) set'
        (stats.recordPass (pending expanded set).length)) := by
  rw [expandPasses.eq_def]
  cases hpending : pending expanded set with
  | nil => exact absurd hpending h
  | cons reference rest => simp only [hpending]

/-- The statistics after passes. -/
def recordPasses (stats : Statistics) (passes : List (List Expansion)) : Statistics :=
  passes.foldl (fun stats pass => stats.recordPass pass.length) stats

/-- With enough fuel the loop goes through the passes. -/
theorem Passes.outcome_expandPasses (h : walk.Passes expanded set names passes set' names')
    (fuel : Nat) (stats : Statistics) :
    (walk.expandPasses (passes.length + fuel) expanded set stats).outcome names =
      (walk.expandPasses fuel (expanded ++ expandedIn passes.flatten) set'
        (recordPasses stats passes)).outcome names' := by
  induction h generalizing stats with
  | nil => simp [expandedIn, recordPasses]
  | @cons expanded set set₁ set' names names₁ names' pass passes hpending hne hpass _ ih =>
    have hpending' : pending expanded set ≠ [] := by
      rw [← hpending]
      exact fun hnil => hne (List.map_eq_nil_iff.1 hnil)
    have hall := yields_expandAll_iff.2 ⟨pass, hpending, hpass⟩
    have hlength : (pending expanded set).length = pass.length := by
      rw [← hpending, expandedIn, List.length_map]
    -- The pass takes one unit of fuel; the others are for the passes after it.
    rw [List.length_cons, Nat.add_right_comm, expandPasses_succ _ _ hpending',
      Run.outcome_bind_of_yields hall, hlength, ← hpending, ih, List.flatten_cons, expandedIn_append,
      List.append_assoc]
    rfl

theorem recordPasses_eq (stats : Statistics) (passes : List (List Expansion)) :
    recordPasses stats passes =
      { stats with
        passes := stats.passes + passes.length
        expanded := stats.expanded + passes.flatten.length
        perPass := stats.perPass ++ passes.map List.length } := by
  induction passes generalizing stats with
  | nil => simp [recordPasses]
  | cons pass passes ih =>
    rw [recordPasses, List.foldl_cons, ← recordPasses, ih]
    simp only [Statistics.recordPass, List.length_cons, List.flatten_cons, List.length_append,
      List.map_cons, List.append_assoc, List.singleton_append, Nat.add_assoc, Nat.add_comm 1]

/-- What holds when the passes have come to their end. -/
structure Settled (initial final : FragmentSet) (passes : List (List Expansion))
    (stats : Statistics) : Prop where
  /-- What was expanded was assumed at the start or came of an expansion. -/
  announced : ∀ reference ∈ expandedIn passes.flatten, Announced initial passes.flatten reference
  /-- What came up has one fragment. -/
  count_eq_one : ∀ reference, Announced initial passes.flatten reference →
    (final.fragments.map Fragment.reference).count reference = 1
  /-- It is concrete, but for the references of path items and callbacks, which were expanded. -/
  concrete : ∀ reference, Announced initial passes.flatten reference →
    ∀ fragment ∈ final.fragments, fragment.reference = reference →
      fragment.isAssumed = false ∨
        fragment.isAssumed = true ∧ reference ∈ expandedIn passes.flatten ∧ AddressesPaths reference
  passes_eq : stats.passes = passes.length
  perPass_eq : stats.perPass = passes.map List.length
  expanded_eq : stats.expanded = (expandedIn passes.flatten).toFinset.card
  sum_eq : stats.perPass.sum = stats.expanded

theorem declared_of_pending_eq_nil (hset : Consistent known expanded set)
    (hpending : pending expanded set = []) {fragment : Fragment} (hfragment : fragment ∈ set.fragments)
    (hassumed : fragment.isAssumed = true) :
    fragment.reference ∈ expanded ∧ AddressesPaths fragment.reference := by
  have hmem : fragment.reference ∈ set.assumedReferences := by
    rw [FragmentSet.mem_assumedReferences, ← Fragment.isAssumed_eq_true hassumed]
    exact hfragment
  have hexpanded : fragment.reference ∈ expanded := by
    by_contra hnot
    have := mem_pending.2 ⟨hmem, hnot⟩
    rw [hpending] at this
    exact List.not_mem_nil this
  refine ⟨hexpanded, ?_⟩
  by_contra hpaths
  -- The fragment of a reference is unique, so it cannot be both assumed and concrete.
  obtain ⟨other, hother, href, hconcrete⟩ := hset.declared _ hexpanded hpaths
  have heq : other = fragment := List.inj_on_of_nodup_map hset.nodup hother hfragment href
  rw [heq, hassumed] at hconcrete
  exact Bool.noConfusion hconcrete

theorem settled_of_passes (h : walk.Passes [] set names passes set' names')
    (hset : Consistent known (expandedIn passes.flatten) set')
    (hpending : pending (expandedIn passes.flatten) set' = []) :
    Settled set set' passes (recordPasses {} passes) where
  announced _ hreference := h.announced_of_expanded hreference
  count_eq_one _ hreference := List.count_eq_one_of_mem hset.nodup (h.stored_of_announced hreference)
  concrete reference _ fragment hfragment href := by
    cases hassumed : fragment.isAssumed with
    | false => exact .inl rfl
    | true => exact .inr ⟨rfl, href ▸ declared_of_pending_eq_nil hset hpending hfragment hassumed⟩
  passes_eq := by simp [recordPasses_eq]
  perPass_eq := by simp [recordPasses_eq]
  expanded_eq := by
    rw [List.toFinset_card_of_nodup hset.nodupExpanded, recordPasses_eq, expandedIn,
      List.length_map]
    exact Nat.zero_add _
  sum_eq := by simp [recordPasses_eq, List.length_flatten]

end Passes

/-! ### The fixed point -/

/-- The references that an expansion from a set may meet. -/
def known (walk : Walk) (initial : FragmentSet) : Finset String :=
  (initial.assumedReferences ++ Pointer.references walk.document).toFinset

theorem mem_known_of_mem_references {initial : FragmentSet} {reference : String}
    (h : reference ∈ Pointer.references walk.document) : reference ∈ walk.known initial :=
  List.mem_toFinset.2 (List.mem_append_right _ h)

theorem card_known_le (walk : Walk) (initial : FragmentSet) :
    (walk.known initial).card ≤ walk.passBound initial := by
  unfold known passBound
  rw [← List.length_append]
  exact List.toFinset_card_le _

theorem consistent_initial (walk : Walk) {initial : FragmentSet}
    (h : (initial.fragments.map Fragment.reference).Nodup) :
    Consistent (walk.known initial) [] initial where
  nodup := h
  knownAssumed _ hreference := List.mem_toFinset.2 (List.mem_append_left _ hreference)
  nodupExpanded := List.nodup_nil
  knownExpanded _ hreference := absurd hreference List.not_mem_nil
  declared _ hreference := absurd hreference List.not_mem_nil

/-- There are not more passes than known references, the next one included if there is one. -/
theorem Consistent.length_add_le {known : Finset String} {expanded : List String}
    {set : FragmentSet} {count : Nat} (h : Consistent known expanded set)
    (hcount : count ≤ expanded.length) :
    count + (if pending expanded set = [] then 0 else 1) ≤ known.card := by
  have hsubset : (expanded ++ pending expanded set).toFinset ⊆ known := by
    intro reference hreference
    rcases List.mem_append.1 (List.mem_toFinset.1 hreference) with hreference | hreference
    · exact h.knownExpanded reference hreference
    · exact h.knownAssumed reference (mem_pending.1 hreference).1
  -- Each pass that has something to do expands at least one reference more.
  have hcard := Finset.card_le_card hsubset
  rw [List.toFinset_card_of_nodup h.nodup_append_pending, List.length_append] at hcard
  split
  · omega
  · next hpending =>
    have := List.length_pos_of_ne_nil hpending
    omega

theorem Passes.consistent_initial {initial final : FragmentSet} {names names' : EnumNames}
    {passes : List (List Expansion)} (h : walk.Passes [] initial names passes final names')
    (hinitial : (initial.fragments.map Fragment.reference).Nodup) :
    Consistent (walk.known initial) (expandedIn passes.flatten) final :=
  h.consistent (fun _ => mem_known_of_mem_references) (Walk.consistent_initial walk hinitial)

/-- Passes after which nothing is pending are all that the bounded loop does. -/
theorem Passes.yields_expandFixedPoint {initial final : FragmentSet} {names names' : EnumNames}
    {passes : List (List Expansion)} (h : walk.Passes [] initial names passes final names')
    (hinitial : (initial.fragments.map Fragment.reference).Nodup)
    (hpending : pending (expandedIn passes.flatten) final = []) :
    (walk.expandFixedPoint initial {}).Yields names (final, recordPasses {} passes) names' := by
  have hfuel := ((h.consistent_initial hinitial).length_add_le h.length_le).trans
    (card_known_le walk initial)
  obtain ⟨fuel, hfuel⟩ := Nat.exists_eq_add_of_le (Nat.le_of_add_right_le hfuel)
  rw [Run.Yields, expandFixedPoint, hfuel, h.outcome_expandPasses, List.nil_append,
    expandPasses_of_pending_eq_nil _ _ hpending, Run.outcome_pure]

/-- The bounded loop does what the passes do: it never runs out of fuel. -/
theorem expandFixedPoint_eq_passes (walk : Walk) {initial : FragmentSet} (names : EnumNames)
    (hinitial : (initial.fragments.map Fragment.reference).Nodup) :
    ∃ passes final names', walk.Passes [] initial names passes final names' ∧
      Consistent (walk.known initial) (expandedIn passes.flatten) final ∧
        ((pending (expandedIn passes.flatten) final = [] ∧
            (walk.expandFixedPoint initial {}).Yields names (final, recordPasses {} passes) names') ∨
          (pending (expandedIn passes.flatten) final ≠ [] ∧ ∃ failure names'',
            (walk.expandAll (pending (expandedIn passes.flatten) final) final).outcome names' =
                (.error failure, names'') ∧
              (walk.expandFixedPoint initial {}).outcome names = (.error failure, names''))) := by
  have hstart := consistent_initial walk hinitial
  obtain ⟨passes, final, names', hpasses, hend⟩ :=
    exists_passes names hstart fun _ => mem_known_of_mem_references
  have hfinal := hpasses.consistent_initial hinitial
  rw [List.nil_append] at hend
  have hfuel := (hfinal.length_add_le hpasses.length_le).trans (card_known_le walk initial)
  refine ⟨passes, final, names', hpasses, hfinal, ?_⟩
  by_cases hpending : pending (expandedIn passes.flatten) final = []
  · exact .inl ⟨hpending, hpasses.yields_expandFixedPoint hinitial hpending⟩
  · refine .inr ⟨hpending, ?_⟩
    obtain ⟨failure, names'', hfailure⟩ := hend.resolve_left hpending
    -- The pass that fails is counted too, so one more unit of fuel is left for it.
    rw [if_neg hpending] at hfuel
    obtain ⟨fuel, hfuel⟩ := Nat.exists_eq_add_of_le hfuel
    refine ⟨failure, names'', hfailure, ?_⟩
    rw [expandFixedPoint, hfuel, Nat.add_assoc, Nat.add_comm 1, hpasses.outcome_expandPasses,
      List.nil_append, expandPasses_succ _ _ hpending, Run.outcome_bind_of_error hfailure]

/-- Where the expansion gives a set, nothing is pending after the passes. -/
theorem exists_passes_of_yields {initial final : FragmentSet} {stats : Statistics}
    {names names' : EnumNames} (hinitial : (initial.fragments.map Fragment.reference).Nodup)
    (h : (walk.expandFixedPoint initial {}).Yields names (final, stats) names') :
    ∃ passes, walk.Passes [] initial names passes final names' ∧
      Consistent (walk.known initial) (expandedIn passes.flatten) final ∧
        pending (expandedIn passes.flatten) final = [] := by
  obtain ⟨passes, final', names'', hpasses, hfinal, hyields | ⟨-, failure, names₁, -, herror⟩⟩ :=
    expandFixedPoint_eq_passes walk names hinitial
  · obtain ⟨hpending, hyields⟩ := hyields
    obtain ⟨hvalue, rfl⟩ := Prod.mk.inj (hyields.symm.trans h)
    obtain ⟨rfl, -⟩ := Prod.mk.inj (Except.ok.inj hvalue)
    exact ⟨passes, hpasses, hfinal, hpending⟩
  · have := herror.symm.trans h
    simp at this

/-- The expansion of the references of a document comes to an end, whatever the document.  There
    are passes, in which no reference is expanded twice and which are not more than the references
    that are assumed at the start or written in the document.  When nothing is pending after them,
    the expansion gives their set and everything that came up is settled; else the next pass fails,
    and the expansion fails with it. -/
theorem expandFixedPoint_settles (walk : Walk) (initial : FragmentSet) (names : EnumNames)
    (hinitial : (initial.fragments.map Fragment.reference).Nodup) :
    ∃ passes final names', walk.Passes [] initial names passes final names' ∧
      let left := pending (expandedIn passes.flatten) final
      (expandedIn passes.flatten ++ left).Nodup ∧
        passes.length + (if left = [] then 0 else 1) ≤
          (initial.assumedReferences ++ Pointer.references walk.document).toFinset.card ∧
        ((left = [] ∧ ∃ stats, (walk.expandFixedPoint initial {}).Yields names (final, stats) names' ∧
            Settled initial final passes stats) ∨
          (left ≠ [] ∧ ∃ failure names'',
            (walk.expandAll left final).outcome names' = (.error failure, names'') ∧
              (walk.expandFixedPoint initial {}).outcome names = (.error failure, names''))) := by
  obtain ⟨passes, final, names', hpasses, hfinal, hend⟩ :=
    expandFixedPoint_eq_passes walk names hinitial
  refine ⟨passes, final, names', hpasses, hfinal.nodup_append_pending,
    hfinal.length_add_le hpasses.length_le, ?_⟩
  rcases hend with ⟨hpending, hyields⟩ | hfails
  · exact .inl ⟨hpending, _, hyields, settled_of_passes hpasses hfinal hpending⟩
  · exact .inr hfails

/-- A walk through a document in which two schemas refer to each other and a third one refers to a
    path item. -/
def household : Walk where
  document := .object [("components", .object [
    ("schemas", .object [
      ("Dog", .object [("type", .string "array"),
        ("items", .object [("$ref", .string "#/components/schemas/Cat")])]),
      ("Cat", .object [("anyOf", .array [
        .object [("$ref", .string "#/components/schemas/Dog")],
        .object [("$ref", .string "#/components/schemas/Bird")]])]),
      ("Bird", .object [("type", .string "object"), ("properties", .object [
        ("nest", .object [("$ref", .string "#/components/pathItems/Nest")])])])]),
    ("pathItems", .object [("Nest", .object [])])])]
  context := { options := {}, baseName := "API" }
  space := "API"

/-- The set in which the first of the schemas is assumed. -/
def firstOfHousehold : FragmentSet where
  fragments := [.assumed "#/components/schemas/Dog"]

/-- Each of four passes expands a reference that the one before it brought up.  The reference of the
    path item stays assumed. -/
theorem expandFixedPoint_settles_household :
    (firstOfHousehold.fragments.map Fragment.reference).Nodup ∧
    ∃ passes final stats names', household.Passes [] firstOfHousehold [] passes final names' ∧
      (household.expandFixedPoint firstOfHousehold {}).Yields [] (final, stats) names' ∧
      passes.map List.length = [1, 1, 1, 1] ∧
      (expandedIn passes.flatten).Nodup ∧
      (final.fragments.map fun fragment => (fragment.reference, fragment.isAssumed)) =
        [("#/components/schemas/Dog", false), ("#/components/schemas/Cat", false),
          ("#/components/pathItems/Nest", true), ("#/components/schemas/Bird", false)] ∧
      Settled firstOfHousehold final passes stats := by
  have hdistinct : (firstOfHousehold.fragments.map Fragment.reference).Nodup := by decide
  have hrun : ((household.expandFixedPoint firstOfHousehold {}).outcome []).1.toOption.map
      (fun result => (result.1.fragments.map fun fragment => (fragment.reference, fragment.isAssumed),
        result.2.perPass)) =
      some ([("#/components/schemas/Dog", false), ("#/components/schemas/Cat", false),
        ("#/components/pathItems/Nest", true), ("#/components/schemas/Bird", false)], [1, 1, 1, 1]) := by
    decide +kernel
  obtain ⟨passes, final, names', hpasses, hnodup, -, hend⟩ :=
    expandFixedPoint_settles household firstOfHousehold [] hdistinct
  refine ⟨hdistinct, passes, final, ?_⟩
  rcases hend with ⟨-, stats, hyields, hsettled⟩ | ⟨-, failure, names'', -, hfails⟩
  · rw [show (household.expandFixedPoint firstOfHousehold {}).outcome [] = _ from hyields] at hrun
    obtain ⟨hfinal, hperPass⟩ := Prod.mk.inj (Option.some.inj hrun)
    exact ⟨stats, names', hpasses, hyields, hsettled.perPass_eq.symm.trans hperPass,
      hnodup.of_append_left, hfinal, hsettled⟩
  -- The run comes to an end with a set, so no pass fails.
  · rw [hfails] at hrun
    exact absurd hrun (Option.some_ne_none _).symm

end Typewright.Api.Walk
