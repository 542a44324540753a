import Typewright.Schema.Context

/-!
# What a run gives

A `Run` starts from the enum names claimed so far.  `Run.outcome` is what comes of it, a value or a
failure, together with the names claimed by then; `Run.Yields` says that a value comes of it.  The
lemmas take a run apart at its first step, so that no later proof opens the monad.
-/

namespace Typewright.Run

variable {α β : Type}

/-- What comes of a run, and the names claimed by then. -/
def outcome (run : Run α) (names : EnumNames) : Except Failure α × EnumNames :=
  ExceptT.run run names

/-- A value comes of the run. -/
def Yields (run : Run α) (names : EnumNames) (value : α) (names' : EnumNames) : Prop :=
  run.outcome names = (.ok value, names')

/-! ### Outcomes -/

@[simp] theorem outcome_pure (value : α) (names : EnumNames) :
    outcome (pure value) names = (.ok value, names) := rfl

@[simp] theorem outcome_throw (failure : Failure) (names : EnumNames) :
    outcome (throw failure : Run α) names = (.error failure, names) := rfl

/-- The second step of a run starts from the value and the names of the first. -/
theorem outcome_bind (run : Run α) (next : α → Run β) (names : EnumNames) :
    outcome (run >>= next) names =
      match run.outcome names with
      | (.ok value, names') => (next value).outcome names'
      | (.error failure, names') => (.error failure, names') := by
  change (ExceptT.bindCont next (ExceptT.run run names).1 : StateM EnumNames _)
    (ExceptT.run run names).2 = _
  unfold outcome
  cases h : ExceptT.run run names with
  | mk result names' => cases result <;> rfl

/-- A step that gives a value hands it on, with the names it left. -/
theorem outcome_bind_of_yields {run : Run α} {names names' : EnumNames} {value : α}
    (h : run.Yields names value names') (next : α → Run β) :
    outcome (run >>= next) names = (next value).outcome names' := by
  rw [outcome_bind, h]

/-- A step that fails ends the run. -/
theorem outcome_bind_of_error {run : Run α} {names names' : EnumNames} {failure : Failure}
    (h : run.outcome names = (.error failure, names')) (next : α → Run β) :
    outcome (run >>= next) names = (.error failure, names') := by
  rw [outcome_bind, h]

@[simp] theorem outcome_liftExcept (result : Except Failure α) (names : EnumNames) :
    outcome (liftM result : Run α) names = (result, names) := by
  cases result <;> rfl

@[simp] theorem outcome_get (names : EnumNames) :
    outcome (get : Run EnumNames) names = (.ok names, names) := rfl

@[simp] theorem outcome_set (names names' : EnumNames) :
    outcome (set names' : Run PUnit) names = (.ok ⟨⟩, names') := rfl

/-! ### Values -/

@[simp] theorem yields_pure_iff {value value' : α} {names names' : EnumNames} :
    Yields (pure value) names value' names' ↔ value = value' ∧ names = names' := by
  simp [Yields]

@[simp] theorem not_yields_throw {failure : Failure} {value : α} {names names' : EnumNames} :
    ¬ Yields (throw failure) names value names' := by
  simp [Yields]

/-- A run of two steps gives a value just if both steps do, the second from where the first
    ended. -/
theorem yields_bind_iff {run : Run α} {next : α → Run β} {names names'' : EnumNames} {value : β} :
    Yields (run >>= next) names value names'' ↔
      ∃ first names', run.Yields names first names' ∧ (next first).Yields names' value names'' := by
  constructor
  · intro h
    rw [Yields, outcome_bind] at h
    split at h
    · next first names' hfirst => exact ⟨first, names', hfirst, h⟩
    · simp at h
  · rintro ⟨first, names', hfirst, hnext⟩
    rw [Yields, outcome_bind_of_yields hfirst]
    exact hnext

/-- A run whose outcome passes a check yields a value that does. -/
theorem exists_yields_of_any {run : Run α} {names : EnumNames} {check : α → Bool}
    (h : (run.outcome names).1.toOption.any check = true) :
    ∃ value names', run.Yields names value names' ∧ check value = true := by
  cases houtcome : run.outcome names with
  | mk result names' =>
    cases result with
    | ok value => exact ⟨value, names', houtcome, by simpa [houtcome, Except.toOption] using h⟩
    | error failure => simp [houtcome, Except.toOption] at h

@[simp] theorem yields_liftExcept_iff {result : Except Failure α} {value : α}
    {names names' : EnumNames} :
    Yields (liftM result : Run α) names value names' ↔ result = .ok value ∧ names = names' := by
  simp [Yields]

/-! ### What every value satisfies -/

/-- Whatever value comes of the run satisfies `P`. -/
def Gives (run : Run α) (P : α → Prop) : Prop :=
  ∀ names value names', run.Yields names value names' → P value

/-- A run that only gives a value gives nothing else. -/
theorem gives_pure {value : α} {P : α → Prop} (h : P value) : Gives (pure value) P := by
  intro names value' names' hyields
  obtain ⟨rfl, -⟩ := yields_pure_iff.1 hyields
  exact h

/-- A run that fails gives no value, so nothing has to hold. -/
theorem gives_throw {failure : Failure} {P : α → Prop} : Gives (throw failure) P :=
  fun _ _ _ hyields => absurd hyields not_yields_throw

/-- A run that may give anything. -/
theorem gives_true (run : Run α) : run.Gives fun _ => True :=
  fun _ _ _ _ => trivial

/-- What the first step gives is what the second may rely on. -/
theorem gives_bind {run : Run α} {next : α → Run β} {P : α → Prop} {Q : β → Prop}
    (hrun : run.Gives P) (hnext : ∀ first, P first → (next first).Gives Q) :
    Gives (run >>= next) Q := by
  intro names value names'' hyields
  obtain ⟨first, names', hfirst, hsecond⟩ := yields_bind_iff.1 hyields
  exact hnext first (hrun _ _ _ hfirst) _ _ _ hsecond

theorem Gives.mono {run : Run α} {P Q : α → Prop} (h : run.Gives P)
    (hPQ : ∀ value, P value → Q value) :
    run.Gives Q :=
  fun names value names' hyields => hPQ value (h names value names' hyields)

theorem gives_map {run : Run α} {f : α → β} {P : α → Prop} {Q : β → Prop} (h : run.Gives P)
    (hQ : ∀ value, P value → Q (f value)) : Gives (f <$> run) Q := by
  rw [map_eq_pure_bind]
  exact gives_bind h fun first hfirst => gives_pure (hQ first hfirst)

/-- What holds of the result for each element holds of all results. -/
theorem gives_mapM {xs : List α} {f : α → Run β} {P : β → Prop} (h : ∀ x ∈ xs, (f x).Gives P) :
    Gives (xs.mapM f) fun ys => ∀ y ∈ ys, P y := by
  induction xs with
  | nil =>
    rw [List.mapM_nil]
    exact gives_pure (List.forall_mem_nil P)
  | cons x xs ih =>
    rw [List.mapM_cons]
    refine gives_bind (h x List.mem_cons_self) fun y hy => ?_
    refine gives_bind (ih fun x hx => h x (List.mem_cons_of_mem _ hx)) fun ys hys => ?_
    exact gives_pure (List.forall_mem_cons.2 ⟨hy, hys⟩)

theorem gives_length_mapM (f : α → Run β) (xs : List α) :
    Gives (xs.mapM f) fun ys => ys.length = xs.length := by
  induction xs with
  | nil =>
    rw [List.mapM_nil]
    exact gives_pure rfl
  | cons x xs ih =>
    rw [List.mapM_cons]
    refine gives_bind (gives_true _) fun y _ => gives_bind ih fun ys hys => gives_pure ?_
    rw [List.length_cons, List.length_cons, hys]

/-- What holds at the start of a fold and is kept by its steps holds at its end. -/
theorem gives_foldlM {xs : List α} {f : β → α → Run β} {P : β → Prop} {start : β} (hstart : P start)
    (hstep : ∀ b, ∀ x ∈ xs, P b → (f b x).Gives P) : Gives (xs.foldlM f start) P := by
  induction xs generalizing start with
  | nil =>
    rw [List.foldlM_nil]
    exact gives_pure hstart
  | cons x xs ih =>
    rw [List.foldlM_cons]
    refine gives_bind (hstep start x List.mem_cons_self hstart) fun b hb => ?_
    exact ih hb fun b y hy => hstep b y (List.mem_cons_of_mem _ hy)

/-- A computation that touches no names gives what it gives by itself. -/
theorem gives_liftExcept {result : Except Failure α} {P : α → Prop}
    (h : ∀ value, result = .ok value → P value) :
    Gives (liftM result : Run α) P := by
  intro names value names' hyields
  exact h value (yields_liftExcept_iff.1 hyields).1

end Typewright.Run
