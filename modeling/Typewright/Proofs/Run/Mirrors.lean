import Mathlib.Data.List.Forall2
import Typewright.Proofs.Run
import Typewright.Proofs.Schema.EnumNames

/-!
# Runs that mirror one another

A run that claims enum names is compared with one that claims none.  `Run.Mirrors` says that both fail
alike or both give values, and that the values are related under whatever names are claimed in the
end.  The rules put such pairs of runs together step by step.
-/

namespace Typewright.Run

variable {α β γ δ : Type}

/-- Both results are failures, and the same one, or both are values, and related. -/
inductive Corresponds (R : α → β → Prop) : Except Failure α → Except Failure β → Prop where
  | value {a : α} {b : β} (h : R a b) : Corresponds R (.ok a) (.ok b)
  | failure (failure : Failure) : Corresponds R (.error failure) (.error failure)

/-- The relation may be weakened where both runs give a value. -/
theorem Corresponds.mono {R R' : α → β → Prop} {a : Except Failure α} {b : Except Failure β}
    (h : Corresponds R a b) (hR : ∀ a' b', a = .ok a' → b = .ok b' → R a' b' → R' a' b') :
    Corresponds R' a b := by
  cases h with
  | value h => exact .value (hR _ _ rfl rfl h)
  | failure failure => exact .failure failure

/-- The first run only adds names and the second one keeps them, whatever they start from; the
    results correspond by what `R` relates under the names that are claimed in the end. -/
structure Mirrors (claiming : Run α) (plain : Run β) (R : EnumNames → α → β → Prop) : Prop where
  claims : ∀ names : EnumNames, names.Extends (claiming.outcome names).2
  keeps : ∀ names : EnumNames, (plain.outcome names).2 = names
  corresponds : ∀ names names₀ : EnumNames,
    Corresponds (fun a b => ∀ final, (claiming.outcome names).2.Extends final → R final a b)
      (claiming.outcome names).1 (plain.outcome names₀).1

variable {R : EnumNames → α → β → Prop} {Q : EnumNames → γ → δ → Prop}

/-- Values given at once must be related whatever the final names are. -/
theorem mirrors_pure {a : α} {b : β} (h : ∀ final, R final a b) : Mirrors (pure a) (pure b) R :=
  ⟨fun names => .refl names, fun _ => rfl, fun _ _ => .value fun final _ => h final⟩

/-- Both runs fail with the same failure. -/
theorem mirrors_throw (failure : Failure) : Mirrors (throw failure) (throw failure) R :=
  ⟨fun names => .refl names, fun _ => rfl, fun _ _ => .failure failure⟩

theorem Mirrors.mono {claiming : Run α} {plain : Run β} {R' : EnumNames → α → β → Prop}
    (h : Mirrors claiming plain R) (hR : ∀ final a b, R final a b → R' final a b) :
    Mirrors claiming plain R' := by
  refine ⟨h.claims, h.keeps, fun names names₀ => ?_⟩
  refine (h.corresponds names names₀).mono fun a b _ _ hab final hfinal => ?_
  exact hR final a b (hab final hfinal)

/-- The second steps are compared where the first ones gave values that are related under some names;
    what they give may rest on that the values of the first are related under the names in the end. -/
theorem mirrors_bind {claiming : Run α} {plain : Run β} {next : α → Run γ} {next' : β → Run δ}
    (hfirst : Mirrors claiming plain R)
    (hnext : ∀ a b names, R names a b →
      Mirrors (next a) (next' b) fun final c d => R final a b → Q final c d) :
    Mirrors (claiming >>= next) (plain >>= next') Q := by
  -- What becomes of the two steps when the first one fails, and when it gives a value.
  have hcases (names names₀ : EnumNames) :
      (∃ failure, outcome (claiming >>= next) names = (.error failure, (claiming.outcome names).2) ∧
        outcome (plain >>= next') names₀ = (.error failure, names₀)) ∨
      ∃ a b, outcome (claiming >>= next) names = (next a).outcome (claiming.outcome names).2 ∧
        outcome (plain >>= next') names₀ = (next' b).outcome names₀ ∧
        ∀ final, (claiming.outcome names).2.Extends final → R final a b := by
    have hkeeps := hfirst.keeps names₀
    have hcorresponds := hfirst.corresponds names names₀
    rw [outcome_bind, outcome_bind]
    cases hclaiming : claiming.outcome names with
    | mk result names' =>
      cases hplain : plain.outcome names₀ with
      | mk result₀ names₀' =>
        rw [hplain] at hkeeps
        rw [hclaiming, hplain] at hcorresponds
        simp only at hkeeps hcorresponds
        rw [hkeeps]
        cases hcorresponds with
        | value h => exact .inr ⟨_, _, rfl, rfl, h⟩
        | failure failure => exact .inl ⟨failure, rfl, rfl⟩
  refine ⟨fun names => ?_, fun names₀ => ?_, fun names names₀ => ?_⟩
  · rcases hcases names names with ⟨failure, hclaiming, -⟩ | ⟨a, b, hclaiming, -, hab⟩
    · rw [hclaiming]
      exact hfirst.claims names
    · rw [hclaiming]
      exact (hfirst.claims names).trans ((hnext a b _ (hab _ (.refl _))).claims _)
  · rcases hcases names₀ names₀ with ⟨failure, -, hplain⟩ | ⟨a, b, -, hplain, hab⟩
    · rw [hplain]
    · rw [hplain]
      exact (hnext a b _ (hab _ (.refl _))).keeps names₀
  · rcases hcases names names₀ with ⟨failure, hclaiming, hplain⟩ | ⟨a, b, hclaiming, hplain, hab⟩
    · rw [hclaiming, hplain]
      exact .failure failure
    · have hsecond := hnext a b _ (hab _ (.refl _))
      rw [hclaiming, hplain]
      refine (hsecond.corresponds _ names₀).mono fun c d _ _ hcd final hfinal => ?_
      exact hcd final hfinal (hab final ((hsecond.claims _).trans hfinal))

theorem mirrors_map {claiming : Run α} {plain : Run β} {f : α → γ} {g : β → δ}
    (h : Mirrors claiming plain R) (hQ : ∀ final a b, R final a b → Q final (f a) (g b)) :
    Mirrors (f <$> claiming) (g <$> plain) Q := by
  rw [map_eq_pure_bind, map_eq_pure_bind]
  exact mirrors_bind h fun a b _ _ => mirrors_pure fun final => hQ final a b

/-- Related elements give lists that are related place by place. -/
theorem mirrors_mapM {ι : Type} {xs : List ι} {claiming : ι → Run α} {plain : ι → Run β}
    (h : ∀ x ∈ xs, Mirrors (claiming x) (plain x) R) :
    Mirrors (xs.mapM claiming) (xs.mapM plain) fun final => List.Forall₂ (R final) := by
  induction xs with
  | nil =>
    rw [List.mapM_nil, List.mapM_nil]
    exact mirrors_pure fun _ => .nil
  | cons x xs ih =>
    rw [List.mapM_cons, List.mapM_cons]
    refine mirrors_bind (h x List.mem_cons_self) fun a b _ _ => ?_
    refine mirrors_bind (ih fun x hx => h x (List.mem_cons_of_mem _ hx)) fun as bs _ _ => ?_
    exact mirrors_pure fun _ hrest hfirst => .cons hfirst hrest

end Typewright.Run
