import Typewright.Generation
import Typewright.Proofs.Api.Guarded

/-!
# Strict and lenient generation

The options `strict` and `requireCleanApi` change nothing about a document that raises none of the
warnings they forbid, and make of every other document the failure of the first such warning
(`Generation.fragments_follows_lenient`).
-/

namespace Typewright.Generation

open Api

/-- The run that makes the fragments of a document. -/
def fragmentsRun (walk : Walk) (kind : DocumentKind) : Run (FragmentSet × Statistics) := do
  let initial ← initialFragments walk kind
  let (set, stats) ← walk.expandFixedPoint initial {}
  pure (set, stats.recordSet set)

theorem fragments_eq (document : Json) (options : Options) :
    fragments document options =
      ((fragmentsRun (walkOf document options) (DocumentKind.ofDocument document)).outcome []).1 := rfl

theorem guarded_fragmentsRun (walk : Walk) (kind : DocumentKind) :
    Walk.GuardedFrom walk.context.options [] (fragmentsRun walk kind)
      (fragmentsRun walk.lenient kind) := by
  have hinitial : Walk.GuardedSet walk.context.options [] (initialFragments walk kind)
      (initialFragments walk.lenient kind) := by
    cases kind with
    | api => exact Walk.guarded_documentFragments walk
    | schema => exact Walk.guarded_rootFragments walk
  refine Run.guarded_seq hinitial fun initial => ?_
  exact Run.guarded_seq (Walk.guarded_expandFixedPoint walk initial {}) fun done =>
    Run.guarded_pure (List.append_nil _).symm

section Document

variable {document : Json} {options : Options}

theorem guarded_fragments (document : Json) (options : Options) :
    Walk.GuardedFrom options []
      (fragmentsRun (walkOf document options) (DocumentKind.ofDocument document))
      (fragmentsRun (walkOf document options.lenient) (DocumentKind.ofDocument document)) :=
  guarded_fragmentsRun (walkOf document options) (DocumentKind.ofDocument document)

/-- Where the lenient run gives fragments, they are kept or the first forbidden warning fails. -/
theorem fragments_of_lenient_eq_ok {set : FragmentSet} {stats : Statistics}
    (h : fragments document options.lenient = .ok (set, stats)) :
    fragments document options =
      match options.firstFailure? set.warnings with
      | none => .ok (set, stats)
      | some failure => .error failure := by
  rw [fragments_eq] at h ⊢
  obtain ⟨raised, hraised, hfollows⟩ := (guarded_fragments document options).follows
    (Prod.ext h rfl : _ = (Except.ok (set, stats), _))
  rw [List.nil_append] at hraised
  unfold Run.Follows at hfollows
  rw [hraised]
  -- Nothing was raised before the run, so its warnings are those that the options are asked about.
  cases hfirst : options.firstFailure? raised with
  | none =>
    rw [hfirst] at hfollows
    exact congrArg Prod.fst hfollows
  | some failure =>
    rw [hfirst] at hfollows
    obtain ⟨names', hfails⟩ := hfollows
    exact congrArg Prod.fst hfails

/-- Where the lenient run fails, nothing is given. -/
theorem exists_fragments_eq_error {failure : Failure}
    (h : fragments document options.lenient = .error failure) :
    ∃ failure', fragments document options = .error failure' := by
  rw [fragments_eq] at h ⊢
  obtain ⟨failure', names', hfails⟩ := (guarded_fragments document options).fails
    ⟨_, (Prod.ext h rfl : _ = (Except.error failure, _))⟩
  exact ⟨failure', congrArg Prod.fst hfails⟩

end Document

/-- Where the lenient run gives fragments, the run under the options gives the same ones, unless a
    warning was raised that the options forbid: then the failure of the first of these is what comes
    of the document.  Conversely, whatever the run under the options gives, the lenient run gives, and
    without a forbidden warning. -/
theorem fragments_follows_lenient (document : Json) (options : Options) :
    (∀ set stats, fragments document options.lenient = .ok (set, stats) →
      fragments document options =
        match options.firstFailure? set.warnings with
        | none => .ok (set, stats)
        | some failure => .error failure) ∧
      ∀ set stats, fragments document options = .ok (set, stats) →
        fragments document options.lenient = .ok (set, stats) ∧
          ∀ warning ∈ set.warnings, options.failureOf? warning = none := by
  refine ⟨fun set stats h => fragments_of_lenient_eq_ok h, fun set stats h => ?_⟩
  cases hlenient : fragments document options.lenient with
  -- A broken document fails under any options, so a strict success excludes it.
  | error failure =>
    obtain ⟨failure', hfailure⟩ := exists_fragments_eq_error hlenient
    rw [hfailure] at h
    exact absurd h (by simp)
  | ok made =>
    obtain ⟨set', stats'⟩ := made
    have hstrict := fragments_of_lenient_eq_ok hlenient
    rw [h] at hstrict
    split at hstrict
    · next hnone =>
      obtain ⟨rfl, rfl⟩ := Prod.mk.inj (Except.ok.inj hstrict)
      exact ⟨rfl, List.findSome?_eq_none_iff.1 hnone⟩
    · exact absurd hstrict (by simp)

/-- An `enum` that is no array, with and without strictness. -/
example :
    let document := Json.object [("enum", .string "red")]
    (fragments document {}).toOption.map (·.1.warnings) = some [.enumDegraded "#"] ∧
      (fragments document { strict := true }).toOption.isNone := by
  decide

end Typewright.Generation
