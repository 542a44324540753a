import Typewright.Proofs.Api.Kept
import Typewright.Proofs.Generation.Closed

/-!
# Nothing that is made is lost

The fragments of a document are those of the start and of all expansions, put into one store by their
references.  None is lost exactly if references identify them, which they do where the course of a
generation keeps its references apart (`Generation.fragments_keeps_concrete`).  A reference into a
response among the components does not keep clear of the members of the response, and one of the two
is lost (`Generation.fragments_loses_member`).
-/

namespace Typewright.Generation

open Api

/-- The course of a generation: the set at the start, then the passes of expansion, after which
    nothing is pending. -/
structure Course (document : Json) (options : Options) where
  initial : FragmentSet
  initialNames : EnumNames
  passes : List (List Walk.Expansion)
  final : FragmentSet
  finalNames : EnumNames
  start : (initialFragments (walkOf document options) (DocumentKind.ofDocument document)).Yields []
    initial initialNames
  run : (walkOf document options).Passes [] initial initialNames passes final finalNames
  settled : Walk.pending (Walk.expandedIn passes.flatten) final = []

section Document

variable {document : Json} {options : Options} {set : FragmentSet} {stats : Statistics}
  {fragment : Fragment}

namespace Course

/-- The fragment is concrete, and came at the start or of an expansion. -/
def Makes (course : Course document options) (fragment : Fragment) : Prop :=
  Walk.Makes course.initial course.passes.flatten fragment

/-- References identify what is made. -/
def Identified (course : Course document options) : Prop :=
  Walk.Identified course.initial course.passes.flatten

/-- What is expanded keeps clear of what is declared of its own accord. -/
def Apart (course : Course document options) : Prop :=
  Walk.Apart course.initial course.passes.flatten

theorem exists_of_fragments_eq_ok (h : fragments document options = .ok (set, stats)) :
    Nonempty (Course document options) := by
  obtain ⟨initial, names, passes, names', hstart, hpasses, -, hpending⟩ :=
    exists_passes_of_fragments_eq_ok h
  exact ⟨initial, names, passes, set, names', hstart, hpasses, hpending⟩

theorem nodup_initial (course : Course document options) :
    (course.initial.fragments.map Fragment.reference).Nodup :=
  nodup_initialFragments _ _ _ _ _ course.start

/-- The set at the end of a course is what is made of the document. -/
theorem exists_fragments_eq_ok (course : Course document options) :
    ∃ stats, fragments document options = .ok (course.final, stats) := by
  have hfixed := course.run.yields_expandFixedPoint course.nodup_initial course.settled
  have hyields : (fragmentsRun (walkOf document options) (DocumentKind.ofDocument document)).Yields []
      _ course.finalNames :=
    Run.yields_bind_iff.2 ⟨_, _, course.start, Run.yields_bind_iff.2
      ⟨_, _, hfixed, Run.yields_pure_iff.2 ⟨rfl, rfl⟩⟩⟩
  rw [fragments_eq]
  exact ⟨_, congrArg Prod.fst hyields⟩

/-- The fragments at the start belong to operations, or there is the statement of the root. -/
theorem owned_initial (course : Course document options) :
    course.initial.Owned course.finalNames (Walk.Claims Pointer.root course.initial.operations) := by
  have hnames := (course.run.owned course.finalNames).1
  have hstart := course.start
  cases hkind : DocumentKind.ofDocument document with
  | api =>
    rw [hkind] at hstart
    have howned := (Walk.givesWithin_documentFragments _ _ _ _ hstart).2 hnames
    exact howned.mono fun _ hown => .inr (.inr hown)
  | schema =>
    rw [hkind] at hstart
    have howned := (Walk.givesWithin_rootFragments _ _ _ _ hstart).2 hnames
    exact howned.mono fun _ hown => .inl hown

theorem identified_of_apart (course : Course document options) (h : course.Apart) :
    course.Identified :=
  course.run.identified_of_apart h (course.run.consistent_initial course.nodup_initial).nodupExpanded
    course.owned_initial

/-- All that is made is in the end, if and only if references identify it. -/
theorem forall_mem_iff_identified (course : Course document options) :
    (∀ fragment, course.Makes fragment → fragment ∈ course.final.fragments) ↔ course.Identified := by
  constructor
  · -- The final set has one fragment for a reference.
    intro h fragment other hfragment hother href
    have hnodup := (course.run.consistent_initial course.nodup_initial).nodup
    exact List.inj_on_of_nodup_map hnodup (h other hother) (h fragment hfragment) href
  · intro h fragment hfragment
    exact course.run.mem_of_identified h hfragment

end Course

/-- No concrete fragment is lost where references keep apart.  The fragments that are made of a
    document are those at the end of its course.  Every concrete fragment that came at the start or of
    an expansion is among them if and only if references identify these fragments, and they do if what
    is expanded keeps clear of what is declared of its own accord. -/
theorem fragments_keeps_concrete (h : fragments document options = .ok (set, stats)) :
    Nonempty (Course document options) ∧ ∀ course : Course document options, course.final = set ∧
      ((∀ fragment, course.Makes fragment → fragment ∈ set.fragments) ↔ course.Identified) ∧
        (course.Apart → course.Identified) := by
  refine ⟨Course.exists_of_fragments_eq_ok h, fun course => ?_⟩
  obtain ⟨stats', hfinal⟩ := course.exists_fragments_eq_ok
  obtain ⟨rfl, -⟩ := Prod.mk.inj (Except.ok.inj (hfinal.symm.trans h))
  exact ⟨rfl, course.forall_mem_iff_identified, course.identified_of_apart⟩

end Document

/-! ### Courses without enums -/

/-- What a run gives when no enum has a name. -/
def plainResult (run : Run FragmentSet) : FragmentSet :=
  (run.outcome []).1.toOption.getD {}

/-- The run gives a set, and names no enum. -/
def isPlain (run : Run FragmentSet) : Bool :=
  match run.outcome [] with
  | (.ok _, []) => true
  | _ => false

theorem yields_of_isPlain {run : Run FragmentSet} (h : isPlain run = true) :
    run.Yields [] (plainResult run) [] := by
  unfold isPlain at h
  split at h
  · next set houtcome =>
    have hset : plainResult run = set := by
      simp only [plainResult, houtcome, Except.toOption, Option.getD_some]
    rw [Run.Yields, hset, houtcome]
  · exact absurd h Bool.false_ne_true

section Follows

variable {walk : Walk}

/-- The references with what comes of them when no enum has a name. -/
def expansionsOf (walk : Walk) (references : List String) : List Walk.Expansion :=
  references.map fun reference => { reference, emitted := plainResult (walk.expand reference) }

/-- Each pass expands what is pending without naming enums, and nothing is pending at the end. -/
def follows (walk : Walk) : List String → FragmentSet → List (List String) → Bool
  | expanded, set, [] => (Walk.pending expanded set).isEmpty
  | expanded, set, pass :: passes =>
    !pass.isEmpty && pass == Walk.pending expanded set &&
      pass.all (fun reference => isPlain (walk.expand reference)) &&
      follows walk (expanded ++ pass) (Walk.addAll set (expansionsOf walk pass)) passes

theorem expandedIn_expansionsOf (walk : Walk) (references : List String) :
    Walk.expandedIn (expansionsOf walk references) = references := by
  rw [Walk.expandedIn, expansionsOf, List.map_map]
  exact List.map_id references

theorem expands_expansionsOf {references : List String} (set : FragmentSet)
    (h : ∀ reference ∈ references, isPlain (walk.expand reference) = true) :
    walk.Expands set [] (expansionsOf walk references)
      (Walk.addAll set (expansionsOf walk references)) [] := by
  induction references generalizing set with
  | nil => exact .nil set []
  | cons reference rest ih =>
    refine .cons (yields_of_isPlain (h reference List.mem_cons_self)) (ih _ ?_)
    exact fun other hother => h other (List.mem_cons_of_mem _ hother)

theorem passes_of_follows {expanded : List String} {set : FragmentSet} {passes : List (List String)}
    (h : follows walk expanded set passes = true) :
    let expansions := passes.map (expansionsOf walk)
    walk.Passes expanded set [] expansions (Walk.addAll set expansions.flatten) [] ∧
      Walk.pending (expanded ++ Walk.expandedIn expansions.flatten)
        (Walk.addAll set expansions.flatten) = [] := by
  induction passes generalizing expanded set with
  | nil =>
    refine ⟨.nil expanded set [], ?_⟩
    simpa [follows, Walk.expandedIn, Walk.addAll] using h
  | cons pass passes ih =>
    simp only [follows, Bool.and_eq_true, Bool.not_eq_true', List.isEmpty_eq_false_iff, beq_iff_eq,
      List.all_eq_true] at h
    obtain ⟨⟨⟨hne, hpending⟩, hplain⟩, hrest⟩ := h
    obtain ⟨hpasses, hsettled⟩ := ih hrest
    have hexpanded := expandedIn_expansionsOf walk pass
    simp only [List.map_cons, List.flatten_cons, Walk.addAll_append, Walk.expandedIn_append, hexpanded]
    rw [List.append_assoc] at hsettled
    -- The references of the expansions are those of the pass, so the rest follows from there.
    refine ⟨.cons (hexpanded.trans hpending) ?_ (expands_expansionsOf set hplain) ?_, hsettled⟩
    · exact fun hnil => hne (List.map_eq_nil_iff.1 hnil)
    · rwa [hexpanded]

end Follows

/-- The course that expands the references of the passes, where no enum is named. -/
def Course.ofPasses (document : Json) (options : Options) (passes : List (List String))
    (hstart : isPlain (initialFragments (walkOf document options)
      (DocumentKind.ofDocument document)) = true)
    (hfollows : follows (walkOf document options) [] (plainResult (initialFragments
      (walkOf document options) (DocumentKind.ofDocument document))) passes = true) :
    Course document options where
  initial := _
  initialNames := []
  passes := passes.map (expansionsOf (walkOf document options))
  final := _
  finalNames := []
  start := yields_of_isPlain hstart
  run := (passes_of_follows hfollows).1
  settled := (passes_of_follows hfollows).2

/-! ### A header that is shared and one that is borrowed -/

/-- An interface with two responses.  One is another response, which has a header; the header of the
    other one is a reference. -/
def headerInterface (header : String) (headers : List (String × Json)) : Json :=
  let refer (reference : String) := Json.object [("$ref", .string reference)]
  let text := Json.object [("schema", .object [("type", .string "string")])]
  .object [
    ("openapi", .string "3.0.0"),
    ("paths", .object [("/a", .object [("get", .object [
      ("operationId", .string "getA"),
      ("responses", .object [("200", refer "#/components/responses/T"),
        ("404", refer "#/components/responses/S")])])])]),
    ("components", .object (("responses", .object [
      ("R", .object [("headers", .object [("X", text)])]),
      ("S", .object [("headers", .object [("Y", refer header)])]),
      ("T", refer "#/components/responses/R")]) :: headers))]

/-- The header is one of the components. -/
def sharedHeader : Json :=
  headerInterface "#/components/headers/X"
    [("headers", .object [("X", .object [("schema", .object [("type", .string "string")])])])]

/-- The header is that of another response. -/
def borrowedHeader : Json :=
  headerInterface "#/components/responses/R/headers/X" []

/-- The responses that are named come first, then what these refer to. -/
def sharedCourse : Course sharedHeader {} :=
  .ofPasses sharedHeader {}
    [["#/components/responses/T", "#/components/responses/S"],
      ["#/components/responses/R", "#/components/headers/X"]]
    (by decide +kernel) (by decide +kernel)

/-- The response with the header is expanded right before the header itself. -/
def borrowedCourse : Course borrowedHeader {} :=
  .ofPasses borrowedHeader {}
    [["#/components/responses/T", "#/components/responses/S"],
      ["#/components/responses/R", "#/components/responses/R/headers/X"]]
    (by decide +kernel) (by decide +kernel)

theorem apart_sharedCourse : sharedCourse.Apart := by
  have hexpanded : Walk.expandedIn sharedCourse.passes.flatten =
      ["#/components/responses/T", "#/components/responses/S", "#/components/responses/R",
        "#/components/headers/X"] := rfl
  refine ⟨fun reference hreference => ?_, fun reference hreference other hother name _ hsplit => ?_, ?_⟩
  · rw [hexpanded] at hreference
    simp only [List.mem_cons, List.not_mem_nil, or_false] at hreference
    rcases hreference with rfl | rfl | rfl | rfl <;> exact Walk.clear_of_split_eq rfl
  · have hnodup : ((Walk.expandedIn sharedCourse.passes.flatten).map Pointer.split).Nodup := by
      rw [hexpanded]
      decide +kernel
    exact List.inj_on_of_nodup_map hnodup hother hreference hsplit
  · decide +kernel

/-- The fragment is the member for the header of the response `R`. -/
def isHeaderOfR (fragment : Fragment) : Bool :=
  fragment.isMember && fragment.reference == "#/components/responses/R/headers/X"

theorem exists_makes_of_any {document : Json} {options : Options} {course : Course document options}
    (h : (course.passes.flatten.any fun expansion =>
      expansion.emitted.fragments.any isHeaderOfR) = true) :
    ∃ fragment, isHeaderOfR fragment = true ∧ course.Makes fragment := by
  obtain ⟨expansion, hexpansion, hany⟩ := List.any_eq_true.1 h
  obtain ⟨fragment, hfragment, hheader⟩ := List.any_eq_true.1 hany
  refine ⟨fragment, hheader, ?_, .inr ⟨expansion, hexpansion, hfragment⟩⟩
  cases fragment with
  | assumed => exact absurd hheader (by simp [isHeaderOfR, Fragment.isMember])
  | _ => rfl

/-- The fragments of the interface whose header is shared are all kept, the member for the header of
    the other response included. -/
theorem fragments_keeps_sharedHeader :
    ∃ set stats, fragments sharedHeader {} = .ok (set, stats) ∧
      (∃ fragment, isHeaderOfR fragment = true ∧ sharedCourse.Makes fragment) ∧
      ∀ fragment, sharedCourse.Makes fragment → fragment ∈ set.fragments := by
  obtain ⟨stats, hset⟩ := sharedCourse.exists_fragments_eq_ok
  refine ⟨_, stats, hset, exists_makes_of_any (by decide +kernel), fun fragment hmakes => ?_⟩
  obtain ⟨-, hkeeps, hidentified⟩ := (fragments_keeps_concrete hset).2 sharedCourse
  exact hkeeps.2 (hidentified apart_sharedCourse) fragment hmakes

/-- A header that is borrowed from a response is declared once more, under the reference of the member
    of that response, and the member is lost. -/
theorem fragments_loses_member :
    ∃ set stats, fragments borrowedHeader {} = .ok (set, stats) ∧
      ∃ fragment, isHeaderOfR fragment = true ∧ borrowedCourse.Makes fragment ∧
        fragment ∉ set.fragments := by
  obtain ⟨stats, hset⟩ := borrowedCourse.exists_fragments_eq_ok
  have hmade : (borrowedCourse.passes.flatten.any fun expansion =>
      expansion.emitted.fragments.any isHeaderOfR) = true := by decide +kernel
  have hlost : borrowedCourse.final.fragments.any isHeaderOfR = false := by decide +kernel
  obtain ⟨fragment, hheader, hmakes⟩ := exists_makes_of_any hmade
  -- What is in the end under the reference is a declaration, no member.
  refine ⟨_, stats, hset, fragment, hheader, hmakes, fun hmem => ?_⟩
  exact absurd hheader (by simpa using List.any_eq_false.1 hlost fragment hmem)

end Typewright.Generation
