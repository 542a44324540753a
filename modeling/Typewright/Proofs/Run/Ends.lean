import Typewright.Proofs.Run.Guarded

/-!
# How runs end

`Run.Ends run P E` says how a run ends, whichever way it does: a value that comes of it satisfies `P`,
and a failure that ends it satisfies `E`.  The rules follow the steps of a run.
-/

namespace Typewright.Run

variable {α β : Type} {P : α → Prop} {Q : β → Prop} {E : Failure → Prop}

/-- Whatever value comes of the run satisfies `P`, and whatever failure ends it satisfies `E`. -/
structure Ends (run : Run α) (P : α → Prop) (E : Failure → Prop) : Prop where
  gives : run.Gives P
  fails : ∀ {names failure}, run.Fails names failure → E failure

theorem ends_pure {value : α} (h : P value) : Ends (pure value) P E := by
  refine ⟨gives_pure h, fun hfails => ?_⟩
  obtain ⟨names', hfails⟩ := hfails
  simp at hfails

/-- A failure is one of the two ways to end. -/
theorem ends_throw {failure : Failure} (h : E failure) : Ends (throw failure) P E := by
  refine ⟨gives_throw, fun hfails => ?_⟩
  obtain ⟨names', hfails⟩ := hfails
  rw [outcome_throw, Prod.mk.injEq, Except.error.injEq] at hfails
  exact hfails.1 ▸ h

/-- The first step may end the run by its failure, or hand on what the second relies on. -/
theorem ends_bind {run : Run α} {next : α → Run β} (hrun : run.Ends P E)
    (hnext : ∀ first, P first → (next first).Ends Q E) : Ends (run >>= next) Q E := by
  refine ⟨gives_bind hrun.gives fun first hfirst => (hnext first hfirst).gives, fun hfails => ?_⟩
  rcases fails_bind_cases hfails with hfails | ⟨first, names', hfirst, hfails⟩
  · exact hrun.fails hfails
  · exact (hnext first (hrun.gives _ _ _ hfirst)).fails hfails

theorem Ends.mono {run : Run α} {P' : α → Prop} {E' : Failure → Prop} (h : run.Ends P E)
    (hP : ∀ value, P value → P' value) (hE : ∀ failure, E failure → E' failure) : run.Ends P' E' :=
  ⟨h.gives.mono hP, fun hfails => hE _ (h.fails hfails)⟩

theorem ends_map {run : Run α} {f : α → β} (h : run.Ends P E) (hQ : ∀ value, P value → Q (f value)) :
    Ends (f <$> run) Q E := by
  rw [map_eq_pure_bind]
  exact ends_bind h fun first hfirst => ends_pure (hQ first hfirst)

/-- The first failure of an element ends the run; otherwise all results are there. -/
theorem ends_mapM {xs : List α} {f : α → Run β} (h : ∀ x ∈ xs, (f x).Ends Q E) :
    Ends (xs.mapM f) (fun ys => ∀ y ∈ ys, Q y) E := by
  induction xs with
  | nil =>
    rw [List.mapM_nil]
    exact ends_pure fun y hy => absurd hy List.not_mem_nil
  | cons x xs ih =>
    rw [List.mapM_cons]
    refine ends_bind (h x List.mem_cons_self) fun y hy => ?_
    refine ends_bind (ih fun x hx => h x (List.mem_cons_of_mem _ hx)) fun ys hys => ?_
    exact ends_pure (List.forall_mem_cons.2 ⟨hy, hys⟩)

/-- Where a run over a list fails, one of its steps does. -/
theorem exists_fails_of_mapM {xs : List α} {f : α → Run β} {names : EnumNames} {failure : Failure}
    (h : Fails (xs.mapM f) names failure) : ∃ x ∈ xs, ∃ names', (f x).Fails names' failure := by
  have hends : Ends (xs.mapM f) (fun ys => ∀ y ∈ ys, True)
      fun failure => ∃ x ∈ xs, ∃ names', (f x).Fails names' failure :=
    ends_mapM fun x hx => ⟨gives_true _, fun hfails => ⟨x, hx, _, hfails⟩⟩
  exact hends.fails h

/-- What holds at the start of a fold and is kept by its steps holds at its end. -/
theorem ends_foldlM {xs : List α} {f : β → α → Run β} {start : β} (hstart : Q start)
    (hstep : ∀ b, ∀ x ∈ xs, Q b → (f b x).Ends Q E) : Ends (xs.foldlM f start) Q E := by
  induction xs generalizing start with
  | nil =>
    rw [List.foldlM_nil]
    exact ends_pure hstart
  | cons x xs ih =>
    rw [List.foldlM_cons]
    refine ends_bind (hstep start x List.mem_cons_self hstart) fun b hb => ?_
    exact ih hb fun b y hy => hstep b y (List.mem_cons_of_mem _ hy)

/-- A computation that touches no names ends as it does by itself. -/
theorem ends_liftExcept {result : Except Failure α} (hP : ∀ value, result = .ok value → P value)
    (hE : ∀ failure, result = .error failure → E failure) : Ends (liftM result : Run α) P E := by
  refine ⟨gives_liftExcept hP, fun hfails => ?_⟩
  obtain ⟨names', hfails⟩ := hfails
  rw [outcome_liftExcept, Prod.mk.injEq] at hfails
  exact hE _ hfails.1

end Typewright.Run
