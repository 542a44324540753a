import Mathlib.Data.List.Induction
import Typewright.Proofs.Fragment.Store
import Typewright.Proofs.Text.Distinct

/-!
# A store is a priority map

A set of fragments is changed in five ways (`FragmentSet.Step`).  Whatever is done to it, and in
whatever order, the fragment stored under a reference is the last concrete one that came for it,
else an assumed one if the reference was assumed at all (`FragmentSet.lookup_after`).  So concrete
fragments of different references may come in any order (`Fragment.lookup_combine_perm`).
-/

namespace Typewright

namespace Fragment

/-! ### Look-ups -/

/-- The fragment that is stored under a reference. -/
def lookup (store : List Fragment) (reference : String) : Option Fragment :=
  store.find? (·.reference == reference)

/-- Whether the fragment declares something under the reference. -/
def isConcreteOf (reference : String) (fragment : Fragment) : Bool :=
  !fragment.isAssumed && fragment.reference == reference

/-- The last concrete fragment of a reference among those that came. -/
def lastConcrete (arrived : List Fragment) (reference : String) : Option Fragment :=
  (arrived.filter (isConcreteOf reference)).getLast?

/-- The assumed fragment of a reference, if it is among those that came. -/
def assumption (arrived : List Fragment) (reference : String) : Option Fragment :=
  if arrived.any fun fragment => fragment.isAssumed && fragment.reference == reference then
    some (assumed reference)
  else none

/-- The fragment that has priority among those that came for a reference: the last concrete one,
    else an assumed one. -/
def winner (arrived : List Fragment) (reference : String) : Option Fragment :=
  (lastConcrete arrived reference).or (assumption arrived reference)

variable {store incoming incoming' : List Fragment} {fragment : Fragment} {reference : String}

theorem lookup_append (first others : List Fragment) (reference : String) :
    lookup (first ++ others) reference = (lookup first reference).or (lookup others reference) := by
  unfold lookup
  rw [List.find?_append]

theorem lookup_singleton (fragment : Fragment) (reference : String) :
    lookup [fragment] reference = if fragment.reference = reference then some fragment else none := by
  by_cases h : fragment.reference = reference <;> simp [lookup, h]

theorem lookup_eq_none_iff : lookup store reference = none ↔ isStored store reference = false := by
  simp [lookup, isStored]

theorem reference_of_lookup (h : lookup store reference = some fragment) :
    fragment.reference = reference := by
  unfold lookup at h
  have href := List.find?_some h
  exact beq_iff_eq.1 href

/-- In a store with distinct references, a look-up finds whatever is there. -/
theorem lookup_eq_some_iff (h : (store.map Fragment.reference).Nodup) :
    lookup store reference = some fragment ↔ fragment ∈ store ∧ fragment.reference = reference := by
  constructor
  · intro hfound
    exact ⟨List.mem_of_find?_eq_some hfound, reference_of_lookup hfound⟩
  · rintro ⟨hmem, rfl⟩
    cases hfound : lookup store fragment.reference with
    | none =>
      have hfree : ∀ other ∈ store, other.reference ≠ fragment.reference := by
        simpa [isStored] using lookup_eq_none_iff.1 hfound
      exact absurd rfl (hfree fragment hmem)
    | some other =>
      have heq : other = fragment :=
        List.inj_on_of_nodup_map h (List.mem_of_find?_eq_some hfound) hmem (reference_of_lookup hfound)
      rw [heq]

/-! ### One fragment -/

/-- A concrete fragment is found under its reference from then on, an assumed one only where nothing
    was found. -/
theorem lookup_put_self (store : List Fragment) (fragment : Fragment) :
    lookup (put store fragment) fragment.reference =
      if fragment.isAssumed then (lookup store fragment.reference).or (some fragment)
      else some fragment := by
  unfold put
  cases hassumed : fragment.isAssumed with
  | true =>
    simp only [if_true]
    cases hstored : isStored store fragment.reference with
    | true =>
      have hsome : lookup store fragment.reference ≠ none := fun hnone => by
        rw [lookup_eq_none_iff.1 hnone] at hstored
        exact Bool.noConfusion hstored
      obtain ⟨other, hother⟩ := Option.ne_none_iff_exists'.1 hsome
      simp [hother]
    | false =>
      simp [lookup_append, lookup_singleton, lookup_eq_none_iff.2 hstored]
  | false =>
    -- Whatever was stored under the reference is gone before the fragment is appended.
    have hgone : lookup (store.filter (·.reference != fragment.reference)) fragment.reference =
        none := by
      simp [lookup]
    simp [lookup_append, lookup_singleton, hgone]

/-- The other references keep what they had. -/
theorem lookup_put_of_ne {fragment : Fragment} {reference : String}
    (h : fragment.reference ≠ reference) (store : List Fragment) :
    lookup (put store fragment) reference = lookup store reference := by
  have hsingle : lookup [fragment] reference = none := by rw [lookup_singleton, if_neg h]
  have hfilter : lookup (store.filter (·.reference != fragment.reference)) reference =
      lookup store reference := by
    unfold lookup
    rw [List.find?_filter]
    congr 1
    funext other
    by_cases hother : other.reference = reference
    · simp [hother, Ne.symm h]
    · simp [hother]
  unfold put
  split
  · split
    · rfl
    · rw [lookup_append, hsingle, Option.or_none]
  · rw [lookup_append, hsingle, Option.or_none, hfilter]

/-! ### Many fragments -/

theorem combine_append (store first others : List Fragment) :
    combine store (first ++ others) = combine (combine store first) others :=
  List.foldl_append

theorem lastConcrete_cons (fragment : Fragment) (incoming : List Fragment) (reference : String) :
    lastConcrete (fragment :: incoming) reference =
      (lastConcrete incoming reference).or
        (if isConcreteOf reference fragment then some fragment else none) := by
  unfold lastConcrete
  by_cases h : isConcreteOf reference fragment = true
  · rw [List.filter_cons_of_pos h, List.getLast?_cons, if_pos h]
    cases (incoming.filter (isConcreteOf reference)).getLast? <;> rfl
  · rw [List.filter_cons_of_neg h, if_neg h, Option.or_none]

theorem assumption_cons (fragment : Fragment) (incoming : List Fragment) (reference : String) :
    assumption (fragment :: incoming) reference =
      (if fragment.isAssumed && fragment.reference == reference then some (assumed reference)
        else none).or (assumption incoming reference) := by
  unfold assumption
  rw [List.any_cons]
  cases fragment.isAssumed && fragment.reference == reference <;> simp

/-- What is found after fragments were stored one by one: the last concrete one of them, else what
    was found before, else an assumed one of them. -/
theorem lookup_combine (store incoming : List Fragment) (reference : String) :
    lookup (combine store incoming) reference =
      (lastConcrete incoming reference).or
        ((lookup store reference).or (assumption incoming reference)) := by
  induction incoming generalizing store with
  | nil => simp [combine, lastConcrete, assumption]
  | cons fragment incoming ih =>
    rw [combine_cons, ih, lastConcrete_cons, assumption_cons, Option.or_assoc]
    congr 1
    -- A fragment under another reference changes nothing; one under this reference is stored,
    -- unless it is assumed and something is stored already.
    by_cases href : fragment.reference = reference
    · subst href
      rw [lookup_put_self]
      cases hassumed : fragment.isAssumed with
      | true =>
        have hfragment : some fragment = some (assumed fragment.reference) := by
          rw [← isAssumed_eq_true hassumed]
        simp [isConcreteOf, hassumed, hfragment]
      | false => simp [isConcreteOf, hassumed]
    · rw [lookup_put_of_ne href]
      simp [isConcreteOf, href]

/-- What is found depends on which concrete fragments come, not on their order, if they all have
    different references. -/
theorem lastConcrete_perm (h : incoming.Perm incoming')
    (hdistinct : ((incoming.filter (!·.isAssumed)).map Fragment.reference).Nodup) (reference : String) :
    lastConcrete incoming reference = lastConcrete incoming' reference := by
  -- At most one concrete fragment comes for the reference, so there is nothing to reorder.
  have hsub : (incoming.filter (isConcreteOf reference)).length ≤ 1 := by
    have hfilter : incoming.filter (isConcreteOf reference) =
        (incoming.filter (!·.isAssumed)).filter (·.reference == reference) := by
      rw [List.filter_filter]
      congr 1
      funext fragment
      rw [isConcreteOf, Bool.and_comm]
    have hcount : ((incoming.filter (!·.isAssumed)).map Fragment.reference).count reference ≤ 1 :=
      List.nodup_iff_count_le_one.1 hdistinct reference
    rw [List.count_eq_countP, List.countP_map, List.countP_eq_length_filter] at hcount
    rw [hfilter]
    exact hcount
  have hperm := h.filter (isConcreteOf reference)
  unfold lastConcrete
  match hlist : incoming.filter (isConcreteOf reference), hsub with
  | [], _ =>
    rw [hlist] at hperm
    rw [List.nil_perm.1 hperm]
  | [single], _ =>
    rw [hlist] at hperm
    rw [List.singleton_perm.1 hperm]

theorem assumption_perm (h : incoming.Perm incoming') (reference : String) :
    assumption incoming reference = assumption incoming' reference := by
  unfold assumption
  rw [h.any_eq]

/-- Fragments may come in any order, if the concrete ones have different references. -/
theorem lookup_combine_perm (store : List Fragment) (h : incoming.Perm incoming')
    (hdistinct : ((incoming.filter (!·.isAssumed)).map Fragment.reference).Nodup) (reference : String) :
    lookup (combine store incoming) reference = lookup (combine store incoming') reference := by
  rw [lookup_combine, lookup_combine, lastConcrete_perm h hdistinct, assumption_perm h]

end Fragment

/-! ### Steps -/

namespace FragmentSet

/-- What can be done to a set of fragments. -/
inductive Step where
  | push (fragment : Fragment)
  | combine (fragments : List Fragment)
  | extend (other : FragmentSet)
  | absorb (typing : Typing)
  | warn (warning : Warning)

namespace Step

/-- The set after a step. -/
def apply (set : FragmentSet) : Step → FragmentSet
  | push fragment => set.push fragment
  | combine fragments => set.combine fragments
  | extend other => set.extend other
  | absorb typing => (set.absorb typing).1
  | warn warning => set.warn warning

/-- The fragments that come with a step. -/
def fragments : Step → List Fragment
  | push fragment => [fragment]
  | combine fragments => fragments
  | extend other => other.fragments
  | absorb typing => typing.emitted.fragments
  | warn _ => []

/-- The warnings that come with a step. -/
def warnings : Step → List Warning
  | extend other => other.warnings
  | absorb typing => typing.emitted.warnings
  | warn warning => [warning]
  | _ => []

/-- The operations that come with a step. -/
def operations : Step → List String
  | extend other => other.operations
  | absorb typing => typing.emitted.operations
  | _ => []

/-- All steps store the fragments that come with them one by one. -/
theorem fragments_apply (set : FragmentSet) (step : Step) :
    (step.apply set).fragments = Fragment.combine set.fragments step.fragments := by
  cases step <;> rfl

theorem warnings_apply (set : FragmentSet) (step : Step) :
    (step.apply set).warnings = set.warnings ++ step.warnings := by
  cases step <;> simp [apply, warnings, FragmentSet.push, FragmentSet.combine, FragmentSet.extend,
    FragmentSet.absorb, FragmentSet.warn]

theorem operations_apply (set : FragmentSet) (step : Step) :
    (step.apply set).operations = Text.insertAllNew set.operations step.operations := by
  cases step <;> rfl

end Step

/-- The set after steps, from the empty one. -/
def after (steps : List Step) : FragmentSet :=
  steps.foldl Step.apply {}

theorem after_append (first others : List Step) :
    after (first ++ others) = others.foldl Step.apply (after first) :=
  List.foldl_append

theorem after_concat (steps : List Step) (step : Step) :
    after (steps ++ [step]) = step.apply (after steps) :=
  after_append steps [step]

/-! ### Runs of steps -/

/-- After any steps, all that came with them was stored one by one. -/
theorem fragments_after (steps : List Step) :
    (after steps).fragments = Fragment.combine [] (steps.flatMap Step.fragments) := by
  induction steps using List.reverseRecOn with
  | nil => rfl
  | append_singleton steps step ih =>
    rw [after_concat, Step.fragments_apply, ih, List.flatMap_append, List.flatMap_singleton,
      Fragment.combine_append]

theorem warnings_after (steps : List Step) :
    (after steps).warnings = steps.flatMap Step.warnings := by
  induction steps using List.reverseRecOn with
  | nil => rfl
  | append_singleton steps step ih =>
    rw [after_concat, Step.warnings_apply, ih, List.flatMap_append, List.flatMap_singleton]

theorem operations_after (steps : List Step) :
    (after steps).operations = Text.distinct (steps.flatMap Step.operations) := by
  induction steps using List.reverseRecOn with
  | nil => rfl
  | append_singleton steps step ih =>
    rw [after_concat, Step.operations_apply, ih, List.flatMap_append, List.flatMap_singleton,
      Text.distinct, Text.distinct, Text.insertAllNew_append]

/-- What is stored after any steps is what has priority among all that came with them. -/
theorem lookup_after (steps : List Step) (reference : String) :
    Fragment.lookup (after steps).fragments reference =
      Fragment.winner (steps.flatMap Step.fragments) reference := by
  have hempty : Fragment.lookup [] reference = none := rfl
  rw [fragments_after, Fragment.lookup_combine, hempty, Option.none_or, Fragment.winner]

/-- What was stored at some time stays stored. -/
theorem stored_after_append {first : List Step} {reference : String}
    (h : (after first).Stored reference) (others : List Step) :
    (after (first ++ others)).Stored reference := by
  induction others using List.reverseRecOn with
  | nil => rwa [List.append_nil]
  | append_singleton others step ih =>
    rw [← List.append_assoc, after_concat]
    have hfragments := Step.fragments_apply (after (first ++ others)) step
    unfold Stored at ih ⊢
    rw [hfragments]
    exact ih.combine step.fragments

theorem nodup_after (steps : List Step) :
    ((after steps).fragments.map Fragment.reference).Nodup := by
  rw [fragments_after]
  exact Fragment.nodup_combine List.nodup_nil

/-- A set is a priority map, whatever was done to it.  References and operations are distinct.  Under
    a reference stands the last concrete fragment that came for it, else an assumed one if one came,
    else nothing, and what was stored at any time still is.  The warnings are all that came, in their
    order.  Storing more fragments in another order gives the same map, if the concrete ones among
    them have different references. -/
theorem after_isPriorityMap (steps : List Step) :
    ((after steps).fragments.map Fragment.reference).Nodup ∧
      (after steps).operations.Nodup ∧
      (∀ reference fragment, fragment ∈ (after steps).fragments ∧ fragment.reference = reference ↔
        Fragment.winner (steps.flatMap Step.fragments) reference = some fragment) ∧
      (∀ first others, steps = first ++ others →
        ∀ reference, (after first).Stored reference → (after steps).Stored reference) ∧
      (after steps).warnings = steps.flatMap Step.warnings ∧
      ∀ incoming incoming' : List Fragment, incoming.Perm incoming' →
        ((incoming.filter (!·.isAssumed)).map Fragment.reference).Nodup →
          ∀ fragment, fragment ∈ ((after steps).combine incoming).fragments ↔
            fragment ∈ ((after steps).combine incoming').fragments := by
  have hnodup := nodup_after steps
  refine ⟨hnodup, ?_, ?_, ?_, warnings_after steps, ?_⟩
  · rw [operations_after]
    exact Text.nodup_distinct _
  · intro reference fragment
    rw [← lookup_after, Fragment.lookup_eq_some_iff hnodup]
  · intro first others hsteps reference hstored
    rw [hsteps]
    exact stored_after_append hstored others
  · intro incoming incoming' hperm hdistinct fragment
    -- Both stores have distinct references, so they hold what look-ups find in them.
    have hmem (incoming : List Fragment) :
        fragment ∈ Fragment.combine (after steps).fragments incoming ↔
          Fragment.lookup (Fragment.combine (after steps).fragments incoming) fragment.reference =
            some fragment := by
      rw [Fragment.lookup_eq_some_iff (Fragment.nodup_combine hnodup)]
      exact (and_iff_left rfl).symm
    show fragment ∈ Fragment.combine (after steps).fragments incoming ↔
      fragment ∈ Fragment.combine (after steps).fragments incoming'
    rw [hmem incoming, hmem incoming', Fragment.lookup_combine_perm _ hperm hdistinct]

end FragmentSet

end Typewright
