import Typewright.Proofs.Run
import Typewright.Proofs.Schema.EnumNames

/-!
# What runs give under the names claimed in the end

A run only adds to the claimed names, so the names claimed by its end are among those that all runs
together claim.  `Run.GivesWithin final run P` says both: the names grow, and whatever the run gives
satisfies `P` if the names claimed by then are among the final ones.
-/

namespace Typewright.Run

variable {α β : Type} {final : EnumNames} {P : α → Prop} {Q : β → Prop}

/-- The run only adds names, and what it gives satisfies `P` if its names are among the final ones. -/
def GivesWithin (final : EnumNames) (run : Run α) (P : α → Prop) : Prop :=
  ∀ names value names', run.Yields names value names' →
    names.Extends names' ∧ (names'.Extends final → P value)

/-- What is given whatever the final names are is given. -/
theorem gives_of_givesWithin {run : Run α} (h : ∀ final, GivesWithin final run P) : run.Gives P :=
  fun names value names' hyields => (h names' names value names' hyields).2 (.refl names')

theorem givesWithin_pure {value : α} (h : P value) : GivesWithin final (pure value) P := by
  intro names value' names' hyields
  obtain ⟨rfl, rfl⟩ := yields_pure_iff.1 hyields
  exact ⟨.refl names, fun _ => h⟩

theorem givesWithin_throw {failure : Failure} : GivesWithin final (throw failure) P :=
  fun _ _ _ hyields => absurd hyields not_yields_throw

/-- What the second step gives may rest on what the first step gave. -/
theorem givesWithin_bind {run : Run α} {next : α → Run β} (hrun : GivesWithin final run P)
    (hnext : ∀ first, GivesWithin final (next first) fun second => P first → Q second) :
    GivesWithin final (run >>= next) Q := by
  intro names value names'' hyields
  obtain ⟨first, names', hfirst, hsecond⟩ := yields_bind_iff.1 hyields
  obtain ⟨hextends, hP⟩ := hrun _ _ _ hfirst
  obtain ⟨hextends', hQ⟩ := hnext first _ _ _ hsecond
  exact ⟨hextends.trans hextends', fun hfinal => hQ hfinal (hP (hextends'.trans hfinal))⟩

theorem GivesWithin.mono {run : Run α} {P' : α → Prop} (h : GivesWithin final run P)
    (hPP' : ∀ value, P value → P' value) : GivesWithin final run P' := by
  intro names value names' hyields
  obtain ⟨hextends, hP⟩ := h _ _ _ hyields
  exact ⟨hextends, fun hfinal => hPP' _ (hP hfinal)⟩

/-- Two properties of one run may be shown apart. -/
theorem GivesWithin.and {run : Run α} {P' : α → Prop} (h : GivesWithin final run P)
    (h' : GivesWithin final run P') : GivesWithin final run fun value => P value ∧ P' value := by
  intro names value names' hyields
  obtain ⟨hextends, hP⟩ := h _ _ _ hyields
  obtain ⟨-, hP'⟩ := h' _ _ _ hyields
  exact ⟨hextends, fun hfinal => ⟨hP hfinal, hP' hfinal⟩⟩

theorem givesWithin_map {run : Run α} {f : α → β} (h : GivesWithin final run P)
    (hQ : ∀ value, P value → Q (f value)) : GivesWithin final (f <$> run) Q := by
  rw [map_eq_pure_bind]
  exact givesWithin_bind h fun first => givesWithin_pure (hQ first)

/-- The names that the elements leave are all among the final ones, so each result may rely on
    them. -/
theorem givesWithin_mapM {xs : List α} {f : α → Run β} (h : ∀ x ∈ xs, GivesWithin final (f x) Q) :
    GivesWithin final (xs.mapM f) fun ys => ∀ y ∈ ys, Q y := by
  induction xs with
  | nil =>
    rw [List.mapM_nil]
    exact givesWithin_pure fun y hy => absurd hy List.not_mem_nil
  | cons x xs ih =>
    rw [List.mapM_cons]
    refine givesWithin_bind (h x List.mem_cons_self) fun y => ?_
    refine givesWithin_bind (ih fun x hx => h x (List.mem_cons_of_mem _ hx)) fun ys => ?_
    exact givesWithin_pure fun hys hy => List.forall_mem_cons.2 ⟨hy, hys⟩

/-- What the start of a fold satisfies and its steps keep, the end satisfies. -/
theorem givesWithin_foldlM {xs : List α} {f : β → α → Run β}
    (h : ∀ b, ∀ x ∈ xs, GivesWithin final (f b x) fun b' => Q b → Q b') (start : β) :
    GivesWithin final (xs.foldlM f start) fun b => Q start → Q b := by
  induction xs generalizing start with
  | nil =>
    rw [List.foldlM_nil]
    exact givesWithin_pure id
  | cons x xs ih =>
    rw [List.foldlM_cons]
    refine givesWithin_bind (h start x List.mem_cons_self) fun b => ?_
    exact (ih (fun b y hy => h b y (List.mem_cons_of_mem _ hy)) b).mono fun _ hb hstep hstart =>
      hb (hstep hstart)

/-- A step that claims no name and may fail. -/
theorem givesWithin_bind_liftExcept {result : Except Failure α} {next : α → Run β}
    (h : ∀ value, result = .ok value → GivesWithin final (next value) Q) :
    GivesWithin final ((liftM result : Run α) >>= next) Q := by
  cases result with
  | ok value => exact h value rfl
  | error failure => exact givesWithin_throw

end Typewright.Run
