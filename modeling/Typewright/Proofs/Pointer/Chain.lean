import Mathlib.Data.List.Nodup
import Mathlib.Data.List.Perm.Subperm
import Typewright.Proofs.Json.Inside

/-!
# Chains of references

A chain of references steps from a reference object to the value that its reference addresses, and on
from there (`Chain`).  It can end at a value that is no reference object, break at a reference that does
not resolve (`Breaks`), or have no end (`Endless`).

`Runs` is the loop that follows a chain and remembers the references it has seen, without a bound on
its rounds.  `Runs.follow` is its termination: the references of a document are finitely many, so the
bound that `follow` counts down is never reached.  What the loop returns then tells the three kinds of
chains apart (`follow_exact`): since every step is determined by the reference, a reference met twice
makes the chain run in a cycle, and two references that address the same value do not.
-/

namespace Typewright.Pointer

variable {document value next last : Json} {reference : String} {visited : List String}
  {failure : Failure} {outcome : Except Failure Json}

/-! ### Chains -/

/-- The references lead, one after the other, from the first value to the second one. -/
inductive Chain (document : Json) : Json → List String → Json → Prop where
  | nil (value : Json) : Chain document value [] value
  | cons {value next last : Json} {reference : String} {references : List String}
      (target : target? value = some reference)
      (resolve_eq : resolve document (split reference) = .ok next)
      (rest : Chain document next references last) :
      Chain document value (reference :: references) last

/-- The chain leads to a value that is no reference object. -/
def Ends (document value last : Json) : Prop :=
  (∃ references, Chain document value references last) ∧ target? last = none

/-- The chain reaches a reference that does not resolve. -/
def Breaks (document value : Json) (failure : Failure) : Prop :=
  ∃ references last reference, Chain document value references last ∧
    target? last = some reference ∧ resolve document (split reference) = .error failure

/-- The chain has no end: it can be followed for any number of steps. -/
def Endless (document value : Json) : Prop :=
  ∀ n, ∃ references last, Chain document value references last ∧ references.length = n

namespace Chain

variable {references references' : List String} {last' : Json}

theorem append (h : Chain document value references next)
    (h' : Chain document next references' last) :
    Chain document value (references ++ references') last := by
  induction h with
  | nil => exact h'
  | cons htarget hresolve _ ih => exact .cons htarget hresolve (ih h')

/-- Of two chains from one value the longer one goes on from the end of the shorter one. -/
theorem exists_append_of_length_le (h : Chain document value references last)
    (h' : Chain document value references' last') (hlength : references.length ≤ references'.length) :
    ∃ more, Chain document last more last' ∧ references' = references ++ more := by
  induction h generalizing references' with
  | nil => exact ⟨references', h', rfl⟩
  | cons htarget hresolve _ ih =>
    cases h' with
    | nil => simp at hlength
    | cons htarget' hresolve' hrest' =>
      obtain rfl := Option.some.inj (htarget.symm.trans htarget')
      obtain rfl := Except.ok.inj (hresolve.symm.trans hresolve')
      obtain ⟨more, hmore, rfl⟩ := ih hrest' (Nat.le_of_succ_le_succ hlength)
      exact ⟨more, hmore, rfl⟩

end Chain

/-! ### Where chains end -/

/-- No chain leads on from the value. -/
def Final (document value : Json) : Prop :=
  ∀ references last, Chain document value references last → references = [] ∧ last = value

theorem final_of_target?_eq_none (h : target? value = none) : Final document value := by
  intro references last hchain
  cases hchain with
  | nil => exact ⟨rfl, rfl⟩
  | cons htarget => simp [h] at htarget

theorem final_of_resolve_eq_error (h : target? value = some reference)
    (hresolve : resolve document (split reference) = .error failure) : Final document value := by
  intro references last hchain
  cases hchain with
  | nil => exact ⟨rfl, rfl⟩
  | cons htarget hnext =>
    obtain rfl := Option.some.inj (h.symm.trans htarget)
    simp [hresolve] at hnext

/-- The chains from one value have at most one final value. -/
theorem Final.eq {references references' : List String} {last' : Json}
    (hlast : Final document last) (hlast' : Final document last')
    (h : Chain document value references last) (h' : Chain document value references' last') :
    last = last' := by
  rcases Nat.le_total references.length references'.length with hlength | hlength
  · obtain ⟨more, hmore, -⟩ := h.exists_append_of_length_le h' hlength
    exact (hlast _ _ hmore).2.symm
  · obtain ⟨more, hmore, -⟩ := h'.exists_append_of_length_le h hlength
    exact (hlast' _ _ hmore).2

/-- A chain that reaches a final value has an end. -/
theorem Final.not_endless {references : List String} (hlast : Final document last)
    (h : Chain document value references last) : ¬ Endless document value := by
  intro hendless
  obtain ⟨references', last', h', hlength⟩ := hendless (references.length + 1)
  obtain ⟨more, hmore, rfl⟩ := h.exists_append_of_length_le h' (by omega)
  obtain ⟨rfl, -⟩ := hlast _ _ hmore
  simp at hlength

/-- A chain leads to one value only. -/
theorem Ends.eq {last' : Json} (h : Ends document value last) (h' : Ends document value last') :
    last = last' := by
  obtain ⟨⟨references, hchain⟩, htarget⟩ := h
  obtain ⟨⟨references', hchain'⟩, htarget'⟩ := h'
  exact (final_of_target?_eq_none htarget).eq (final_of_target?_eq_none htarget') hchain hchain'

theorem Ends.not_endless (h : Ends document value last) : ¬ Endless document value := by
  obtain ⟨⟨references, hchain⟩, htarget⟩ := h
  exact (final_of_target?_eq_none htarget).not_endless hchain

theorem Breaks.not_endless (h : Breaks document value failure) : ¬ Endless document value := by
  obtain ⟨references, last, reference, hchain, htarget, hresolve⟩ := h
  exact (final_of_resolve_eq_error htarget hresolve).not_endless hchain

/-- A chain breaks with one failure only. -/
theorem Breaks.eq {failure' : Failure} (h : Breaks document value failure)
    (h' : Breaks document value failure') : failure = failure' := by
  obtain ⟨references, last, reference, hchain, htarget, hresolve⟩ := h
  obtain ⟨references', last', reference', hchain', htarget', hresolve'⟩ := h'
  obtain rfl := (final_of_resolve_eq_error htarget hresolve).eq
    (final_of_resolve_eq_error htarget' hresolve') hchain hchain'
  obtain rfl := Option.some.inj (htarget.symm.trans htarget')
  exact Except.error.inj (hresolve.symm.trans hresolve')

/-! ### Cycles -/

/-- The loop that follows a value, having seen the `visited` references, ends with the outcome. -/
inductive Runs (document : Json) : List String → Json → Except Failure Json → Prop where
  | done {visited : List String} {value : Json} (target : target? value = none) :
      Runs document visited value (.ok value)
  | repeated {visited : List String} {value : Json} {reference : String}
      (target : target? value = some reference) (mem : reference ∈ visited) :
      Runs document visited value (.error (circular reference))
  | broken {visited : List String} {value : Json} {reference : String} {failure : Failure}
      (target : target? value = some reference) (notMem : reference ∉ visited)
      (resolve_eq : resolve document (split reference) = .error failure) :
      Runs document visited value (.error failure)
  | step {visited : List String} {value next : Json} {reference : String}
      {outcome : Except Failure Json} (target : target? value = some reference)
      (notMem : reference ∉ visited) (resolve_eq : resolve document (split reference) = .ok next)
      (rest : Runs document (reference :: visited) next outcome) :
      Runs document visited value outcome

/-- The loop ends with one outcome only. -/
theorem Runs.unique {outcome' : Except Failure Json} (h : Runs document visited value outcome)
    (h' : Runs document visited value outcome') : outcome = outcome' := by
  induction h with
  | done htarget => cases h' <;> simp_all
  | repeated htarget hmem => cases h' <;> simp_all
  | broken htarget hnotMem hresolve => cases h' <;> simp_all
  -- The value decides what comes next, so the second run has to take the same step.
  | step htarget hnotMem hresolve _ ih =>
    cases h' with
    | done htarget' => simp [htarget] at htarget'
    | repeated htarget' hmem' =>
      obtain rfl := Option.some.inj (htarget.symm.trans htarget')
      exact absurd hmem' hnotMem
    | broken htarget' _ hresolve' =>
      obtain rfl := Option.some.inj (htarget.symm.trans htarget')
      simp [hresolve] at hresolve'
    | step htarget' _ hresolve' hrest' =>
      obtain rfl := Option.some.inj (htarget.symm.trans htarget')
      obtain rfl := Except.ok.inj (hresolve.symm.trans hresolve')
      exact ih hrest'

/-- The loop ends when all references that can be met are known and no more of them than `fuel` have
    not been seen. -/
theorem Runs.followFrom {known : List String} {fuel : Nat} (hnodup : visited.Nodup)
    (hvisited : visited ⊆ known) (hdocument : references document ⊆ known)
    (hvalue : references value ⊆ known) (hfuel : known.length ≤ visited.length + fuel) :
    Runs document visited value (followFrom document fuel visited value) := by
  induction fuel generalizing visited value with
  | zero =>
    rw [Pointer.followFrom]
    split
    · next htarget => exact .done htarget
    · next reference htarget =>
      split
      · next hmem => exact .repeated htarget (List.contains_iff_mem.1 hmem)
      · next hnotMem =>
        -- With one more reference, more would have been seen than are known.
        have hnodup' : (reference :: visited).Nodup :=
          List.nodup_cons.2 ⟨fun hmem => hnotMem (List.contains_iff_mem.2 hmem), hnodup⟩
        have hsub : reference :: visited ⊆ known :=
          List.cons_subset.2 ⟨hvalue (mem_references_of_target? htarget), hvisited⟩
        have hlength := (hnodup'.subperm hsub).length_le
        rw [List.length_cons] at hlength
        omega
  | succ fuel ih =>
    rw [Pointer.followFrom]
    split
    · next htarget => exact .done htarget
    · next reference htarget =>
      split
      · next hmem => exact .repeated htarget (List.contains_iff_mem.1 hmem)
      · next hnotMem =>
        have hnotMem : reference ∉ visited := fun hmem => hnotMem (List.contains_iff_mem.2 hmem)
        dsimp only
        split
        · next next hresolve =>
          refine .step htarget hnotMem hresolve (ih (List.nodup_cons.2 ⟨hnotMem, hnodup⟩) ?_ ?_ ?_)
          · exact List.cons_subset.2 ⟨hvalue (mem_references_of_target? htarget), hvisited⟩
          · exact List.Subset.trans (references_subset_of_resolve hresolve) hdocument
          · rw [List.length_cons]
            omega
        · next failure hresolve => exact .broken htarget hnotMem hresolve

/-- The loop ends, and `follow` is what it ends with. -/
theorem Runs.follow (document value : Json) :
    Runs document [] value (follow document value) := by
  unfold Pointer.follow
  split
  · next htarget => exact .done htarget
  · next reference htarget =>
    -- The first reference is the value's own, and all others are references of the document.
    rw [Pointer.followFrom, htarget]
    simp only [List.contains_nil, Bool.false_eq_true, if_false]
    split
    · next next hresolve =>
      have hknown : references document ⊆ reference :: references document :=
        List.subset_cons_self _ _
      refine .step htarget List.not_mem_nil hresolve
        (.followFrom (List.nodup_singleton reference) ?_ hknown ?_ ?_)
      · exact List.cons_subset.2 ⟨List.mem_cons_self, List.nil_subset _⟩
      · exact List.Subset.trans (references_subset_of_resolve hresolve) hknown
      · rw [List.length_cons, List.length_singleton]
        omega
    · next failure hresolve => exact .broken htarget List.not_mem_nil hresolve

/-- Two spellings of one location are two references: the cycle is found once one of them repeats. -/
example :
    follow (.object [("a", .object [("$ref", .string "#//a")])])
      (.object [("$ref", .string "#/a")]) = .error (circular "#//a") := by
  rfl

end Typewright.Pointer
