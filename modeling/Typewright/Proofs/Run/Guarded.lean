import Typewright.Proofs.Run

/-!
# Strict and lenient runs

The options `strict` and `requireCleanApi` turn some warnings into failures.  `Run.Guarded` compares a
run under such options with the same run without them: where the lenient run gives a value and raises
no forbidden warning, the strict one gives the same value; where it raises one, the strict run fails
with the failure of the first; and where the lenient run fails, the strict run fails.  The rules put
such pairs of runs together step by step.
-/

namespace Typewright

/-! ### Forbidden warnings -/

namespace Options

/-- The options under which nothing but a broken document is a failure. -/
def lenient (options : Options) : Options :=
  { options with strict := false, requireCleanApi := false }

/-- The failure that the options make of a warning, if they forbid it. -/
def failureOf? (options : Options) : Warning → Option Failure
  | .schemaDegraded reference =>
    if options.strict then some (.unsupportedSchema reference) else none
  | .enumDegraded reference => if options.strict then some (.unsupportedEnum reference) else none
  | .operationIdSynthesized method path _ =>
    if options.requireCleanApi then some (.operationIdRequired method path) else none
  | .responseFiltered _ _ => none

/-- The failure of the first forbidden warning. -/
def firstFailure? (options : Options) (warnings : List Warning) : Option Failure :=
  warnings.findSome? options.failureOf?

variable {options : Options} {failure : Failure} {first others : List Warning}

/-- What is forbidden first stays first, whatever is raised after it. -/
theorem firstFailure?_append_of_some (h : options.firstFailure? first = some failure)
    (others : List Warning) : options.firstFailure? (first ++ others) = some failure := by
  rw [firstFailure?, List.findSome?_append, ← firstFailure?, h]
  rfl

/-- Warnings that no option forbids do not count. -/
theorem firstFailure?_append_of_none (h : options.firstFailure? first = none)
    (others : List Warning) :
    options.firstFailure? (first ++ others) = options.firstFailure? others := by
  rw [firstFailure?, List.findSome?_append, ← firstFailure?, h]
  rfl

end Options

namespace Run

variable {α β : Type} {options : Options}

/-- The run fails. -/
def Fails (run : Run α) (names : EnumNames) (failure : Failure) : Prop :=
  ∃ names', run.outcome names = (.error failure, names')

/-- What the strict run does where the lenient one gives a value and raises some warnings. -/
def Follows (options : Options) (strict : Run α) (names : EnumNames) (value : α)
    (names' : EnumNames) (raised : List Warning) : Prop :=
  match options.firstFailure? raised with
  | none => strict.Yields names value names'
  | some failure => strict.Fails names failure

/-- The strict run does what the lenient one does until a forbidden warning is raised, and fails
    then; `P` tells which warnings a value of the lenient run comes with. -/
structure Guarded (options : Options) (strict lenient : Run α) (P : α → List Warning → Prop) :
    Prop where
  follows : ∀ {names value names'}, lenient.Yields names value names' →
    ∃ raised, P value raised ∧ Follows options strict names value names' raised
  fails : ∀ {names failure}, lenient.Fails names failure → ∃ failure', strict.Fails names failure'

/-! ### Rules -/

/-- A run gives a value or fails; there is no third outcome. -/
theorem yields_or_fails (run : Run α) (names : EnumNames) :
    (∃ value names', run.Yields names value names') ∨ ∃ failure, run.Fails names failure := by
  rcases houtcome : run.outcome names with ⟨failure | value, names'⟩
  · exact .inr ⟨_, names', houtcome⟩
  · exact .inl ⟨_, names', houtcome⟩

theorem Fails.bind {run : Run α} {names : EnumNames} {failure : Failure}
    (h : run.Fails names failure) (next : α → Run β) : Fails (run >>= next) names failure := by
  obtain ⟨names', h⟩ := h
  exact ⟨names', outcome_bind_of_error h next⟩

/-- A run of two steps fails in the first one or in the second one. -/
theorem fails_bind_cases {run : Run α} {next : α → Run β} {names : EnumNames} {failure : Failure}
    (h : Fails (run >>= next) names failure) :
    run.Fails names failure ∨
      ∃ value names', run.Yields names value names' ∧ (next value).Fails names' failure := by
  obtain ⟨names'', h⟩ := h
  rw [outcome_bind] at h
  split at h
  · next value names' hvalue => exact .inr ⟨value, names', hvalue, names'', h⟩
  · next other names' hfailure =>
    obtain ⟨hother, rfl⟩ := Prod.mk.inj h
    rw [Except.error.inj hother] at hfailure
    exact .inl ⟨names', hfailure⟩

/-- A run that only gives a value raises nothing. -/
theorem guarded_pure {value : α} {P : α → List Warning → Prop} (h : P value []) :
    Guarded options (pure value) (pure value) P := by
  refine ⟨fun hyields => ?_, fun hfails => ?_⟩
  · obtain ⟨rfl, rfl⟩ := yields_pure_iff.1 hyields
    exact ⟨[], h, hyields⟩
  · obtain ⟨names', hfails⟩ := hfails
    simp at hfails

/-- Two failures need not be the same one: the lenient run has then no value to agree with. -/
theorem guarded_throw {failure failure' : Failure} {P : α → List Warning → Prop} :
    Guarded options (throw failure) (throw failure') P :=
  ⟨fun hyields => absurd hyields not_yields_throw, fun {names _} _ => ⟨failure, names, rfl⟩⟩

/-- A step that raises one warning, or fails where the options forbid it. -/
theorem guarded_warning {forbidden : Bool} {warning : Warning} {failure : Failure} {value : α}
    {P : α → List Warning → Prop}
    (hwarning : options.failureOf? warning = if forbidden then some failure else none)
    (h : P value [warning]) :
    Guarded options (if forbidden then throw failure else pure value) (pure value) P := by
  have hfirst : options.firstFailure? [warning] = options.failureOf? warning := by
    rw [Options.firstFailure?, List.findSome?_singleton]
  refine ⟨fun {names value' names'} hyields => ⟨[warning], ?_, ?_⟩, fun hfails => ?_⟩
  · exact (yields_pure_iff.1 hyields).1 ▸ h
  · unfold Follows
    rw [hfirst, hwarning]
    cases forbidden
    · exact hyields
    · exact ⟨names, rfl⟩
  · obtain ⟨names', hfails⟩ := hfails
    simp at hfails

theorem Guarded.mono {strict lenient : Run α} {P Q : α → List Warning → Prop}
    (h : Guarded options strict lenient P) (hPQ : ∀ value raised, P value raised → Q value raised) :
    Guarded options strict lenient Q := by
  refine ⟨fun hyields => ?_, h.fails⟩
  obtain ⟨raised, hraised, hfollows⟩ := h.follows hyields
  exact ⟨raised, hPQ _ _ hraised, hfollows⟩

/-- The warnings of the second step come after those of the first. -/
theorem guarded_bind {strict lenient : Run α} {strictNext lenientNext : α → Run β}
    {P : α → List Warning → Prop} {Q : β → List Warning → Prop}
    (hfirst : Guarded options strict lenient P)
    (hnext : ∀ value raised, P value raised →
      Guarded options (strictNext value) (lenientNext value) fun result more =>
        Q result (raised ++ more)) :
    Guarded options (strict >>= strictNext) (lenient >>= lenientNext) Q := by
  refine ⟨fun {names result names''} hyields => ?_, fun {names failure} hfails => ?_⟩
  · obtain ⟨value, names', hvalue, hresult⟩ := yields_bind_iff.1 hyields
    obtain ⟨raised, hraised, hfollows⟩ := hfirst.follows hvalue
    obtain ⟨more, hmore, hfollows'⟩ := (hnext value raised hraised).follows hresult
    refine ⟨raised ++ more, hmore, ?_⟩
    unfold Follows at hfollows hfollows' ⊢
    cases hfailure : options.firstFailure? raised with
    | some failure =>
      -- The first forbidden warning of the first step is that of both steps.
      rw [hfailure] at hfollows
      rw [Options.firstFailure?_append_of_some hfailure]
      exact hfollows.bind _
    | none =>
      -- The first step passes, and what the second one raises decides.
      rw [hfailure] at hfollows
      rw [Options.firstFailure?_append_of_none hfailure]
      split at hfollows'
      · exact yields_bind_iff.2 ⟨value, names', hfollows, hfollows'⟩
      · obtain ⟨names₁, hfails⟩ := hfollows'
        exact ⟨names₁, (outcome_bind_of_yields hfollows _).trans hfails⟩
  · rcases fails_bind_cases hfails with hfails | ⟨value, names', hvalue, hfails⟩
    · obtain ⟨failure', hfails'⟩ := hfirst.fails hfails
      exact ⟨failure', hfails'.bind _⟩
    · -- Where the lenient run fails in its second step, the strict one may fail before that.
      obtain ⟨raised, hraised, hfollows⟩ := hfirst.follows hvalue
      unfold Follows at hfollows
      split at hfollows
      · obtain ⟨failure', names₁, hfails'⟩ := (hnext value raised hraised).fails hfails
        exact ⟨failure', names₁, (outcome_bind_of_yields hfollows _).trans hfails'⟩
      · next failure' _ => exact ⟨failure', hfollows.bind _⟩

/-- Two steps that each add their warnings to those they start from. -/
theorem guarded_seq {strict lenient : Run α} {strictNext lenientNext : α → Run β}
    {v : α → List Warning} {w : β → List Warning} {start : List Warning}
    (hfirst : Guarded options strict lenient fun value raised => v value = start ++ raised)
    (hnext : ∀ value, Guarded options (strictNext value) (lenientNext value) fun result raised =>
      w result = v value ++ raised) :
    Guarded options (strict >>= strictNext) (lenient >>= lenientNext) fun result raised =>
      w result = start ++ raised := by
  refine guarded_bind hfirst fun value raised hraised => ?_
  refine (hnext value).mono fun result more hmore => ?_
  rw [hmore, hraised, List.append_assoc]

theorem guarded_map {strict lenient : Run α} {f : α → β} {P : α → List Warning → Prop}
    {Q : β → List Warning → Prop} (h : Guarded options strict lenient P)
    (hQ : ∀ value raised, P value raised → Q (f value) raised) :
    Guarded options (f <$> strict) (f <$> lenient) Q := by
  rw [map_eq_pure_bind, map_eq_pure_bind]
  refine guarded_bind h fun value raised hraised => guarded_pure ?_
  rw [List.append_nil]
  exact hQ value raised hraised

/-- A step that depends on no option and raises no warning. -/
theorem guarded_refl (run : Run α) : Guarded options run run fun _ raised => raised = [] :=
  ⟨fun hyields => ⟨[], rfl, hyields⟩, fun hfails => ⟨_, hfails⟩⟩

/-- The elements raise their warnings in the order of the list. -/
theorem guarded_mapM {γ : Type} {xs : List γ} {strict lenient : γ → Run α} (w : α → List Warning)
    (h : ∀ x ∈ xs, Guarded options (strict x) (lenient x) fun value raised => w value = raised) :
    Guarded options (xs.mapM strict) (xs.mapM lenient) fun values raised =>
      values.flatMap w = raised := by
  induction xs with
  | nil =>
    rw [List.mapM_nil, List.mapM_nil]
    exact guarded_pure rfl
  | cons x xs ih =>
    rw [List.mapM_cons, List.mapM_cons]
    refine guarded_bind (h x List.mem_cons_self) fun value raised hraised => ?_
    refine guarded_bind (ih fun x hx => h x (List.mem_cons_of_mem _ hx)) fun values more hmore => ?_
    refine guarded_pure ?_
    rw [List.flatMap_cons, hraised, hmore, List.append_nil]

/-- A fold whose steps add their warnings to those they start from. -/
theorem guarded_foldlM {γ : Type} {xs : List γ} {strict lenient : α → γ → Run α}
    {w : α → List Warning} (start : α)
    (h : ∀ value, ∀ x ∈ xs, Guarded options (strict value x) (lenient value x) fun result raised =>
      w result = w value ++ raised) :
    Guarded options (xs.foldlM strict start) (xs.foldlM lenient start) fun result raised =>
      w result = w start ++ raised := by
  induction xs generalizing start with
  | nil =>
    rw [List.foldlM_nil, List.foldlM_nil]
    exact guarded_pure (List.append_nil _).symm
  | cons x xs ih =>
    rw [List.foldlM_cons, List.foldlM_cons]
    exact guarded_seq (h start x List.mem_cons_self) fun value =>
      ih value fun value x hx => h value x (List.mem_cons_of_mem _ hx)

end Run

end Typewright
