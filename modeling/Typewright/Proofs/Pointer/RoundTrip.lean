import Typewright.Proofs.Pointer.Segments

/-!
# References and segments undo each other

Splitting a joined reference gives the segments it was joined from, but for the empty ones, and
joining the segments of a reference gives the reference back exactly if it is written the way `join`
writes it (`join_split_iff`): `#/` and then segments that are not empty, in which each tilde begins
an escape.  `split_join_and_back` puts both directions and the children of a reference together.
-/

namespace Typewright.Pointer

/-! ### Written segments -/

/-- Every tilde begins an escape: a zero or a one comes after it. -/
def EscapesComplete (cs : List Char) : Prop :=
  ∀ before after, cs = before ++ '~' :: after → after.head? = some '0' ∨ after.head? = some '1'

/-- A segment as a reference may write it: it is not empty, has no slash, and its escapes are
    complete. -/
structure Written (piece : String) : Prop where
  ne_empty : piece ≠ ""
  slash : '/' ∉ piece.toList
  escapes : EscapesComplete piece.toList

section Escapes

variable {c : Char} {cs : List Char}

theorem escapesComplete_nil : EscapesComplete [] :=
  fun _ _ h => absurd h.symm (by simp)

theorem EscapesComplete.of_cons (h : EscapesComplete (c :: cs)) : EscapesComplete cs :=
  fun before after hcs => h (c :: before) after (by rw [hcs, List.cons_append])

theorem EscapesComplete.cons (h : EscapesComplete cs) (hc : c ≠ '~') : EscapesComplete (c :: cs) := by
  intro before after hcs
  cases before with
  | nil => exact absurd (List.cons.inj hcs).1 hc
  | cons first before => exact h before after (List.cons.inj hcs).2

theorem EscapesComplete.escape (h : EscapesComplete cs) (hc : c = '0' ∨ c = '1') :
    EscapesComplete ('~' :: c :: cs) := by
  have hne : c ≠ '~' := by rcases hc with rfl | rfl <;> decide
  intro before after hcs
  cases before with
  | nil =>
    obtain ⟨-, rfl⟩ := List.cons.inj hcs
    exact hc.imp (congrArg some) (congrArg some)
  | cons first before => exact h.cons hne before after (List.cons.inj hcs).2

theorem escapeChars_cons (c : Char) (cs : List Char) :
    escapeChars (c :: cs) = escapeChar c ++ escapeChars cs :=
  List.flatMap_cons

theorem escapesComplete_escapeChars (cs : List Char) : EscapesComplete (escapeChars cs) := by
  induction cs with
  | nil => exact escapesComplete_nil
  | cons c rest ih =>
    rw [escapeChars_cons, escapeChar]
    split
    · exact ih.escape (.inl rfl)
    · next htilde =>
      split
      · exact ih.escape (.inr rfl)
      · exact ih.cons htilde

/-- What has complete escapes and no slash is the escaped form of something. -/
theorem exists_escapeChars_eq (hescapes : EscapesComplete cs) (hslash : '/' ∉ cs) :
    ∃ ds, escapeChars ds = cs := by
  -- An escape takes two characters at once, so the induction is on the length.
  induction hlength : cs.length using Nat.strongRecOn generalizing cs with
  | _ n ih =>
    cases cs with
    | nil => exact ⟨[], rfl⟩
    | cons c rest =>
      obtain ⟨hc, hrest⟩ := List.ne_and_not_mem_of_not_mem_cons hslash
      by_cases htilde : c = '~'
      · subst htilde
        cases rest with
        | nil => exact absurd (hescapes [] [] rfl) (by simp)
        | cons d rest =>
          have hshorter : rest.length < n := by simp only [List.length_cons] at hlength; omega
          obtain ⟨ds, hds⟩ := ih rest.length hshorter hescapes.of_cons.of_cons
            (List.ne_and_not_mem_of_not_mem_cons hrest).2 rfl
          rcases hescapes [] (d :: rest) rfl with hd | hd
          · refine ⟨'~' :: ds, ?_⟩
            rw [escapeChars_cons, hds, Option.some.inj hd]
            rfl
          · refine ⟨'/' :: ds, ?_⟩
            rw [escapeChars_cons, hds, Option.some.inj hd]
            rfl
      · obtain ⟨ds, hds⟩ := ih rest.length (by rw [← hlength]; simp) hescapes.of_cons hrest rfl
        refine ⟨c :: ds, ?_⟩
        rw [escapeChars_cons, hds, escapeChar, if_neg htilde, if_neg (Ne.symm hc)]
        rfl

end Escapes

/-- The written segments are the segments that are not empty, escaped. -/
theorem written_iff {piece : String} : Written piece ↔ ∃ segment, segment ≠ "" ∧ escape segment = piece := by
  constructor
  · intro h
    -- A piece with complete escapes and no slash is the escaped form of some text.
    obtain ⟨cs, hcs⟩ := exists_escapeChars_eq h.escapes h.slash
    have hpiece : escape (String.ofList cs) = piece := by
      rw [escape, String.toList_ofList, hcs, String.ofList_toList]
    refine ⟨String.ofList cs, fun hempty => h.ne_empty ?_, hpiece⟩
    rw [← hpiece, hempty]
    rfl
  · rintro ⟨segment, hsegment, rfl⟩
    have htoList : (escape segment).toList = escapeChars segment.toList := String.toList_ofList
    refine ⟨fun hempty => hsegment ?_, ?_, ?_⟩
    · have hnil : escapeChars segment.toList = [] := by rw [← htoList, hempty]; rfl
      exact String.toList_eq_nil_iff.1 (escapeChars_eq_nil_iff.1 hnil)
    · rw [htoList]
      exact notMem_escapeChars _
    · rw [htoList]
      exact escapesComplete_escapeChars _

theorem exists_map_escape_eq {pieces : List String} (h : ∀ piece ∈ pieces, Written piece) :
    ∃ segments : List String, (∀ segment ∈ segments, segment ≠ "") ∧ segments.map escape = pieces := by
  induction pieces with
  | nil => exact ⟨[], fun _ hmem => absurd hmem List.not_mem_nil, rfl⟩
  | cons piece rest ih =>
    obtain ⟨segments, hsegments, rfl⟩ := ih fun other hother => h other (List.mem_cons_of_mem _ hother)
    obtain ⟨segment, hsegment, rfl⟩ := written_iff.1 (h piece List.mem_cons_self)
    exact ⟨segment :: segments, List.forall_mem_cons.2 ⟨hsegment, hsegments⟩, rfl⟩

/-! ### Joining what was split -/

/-- Joining the segments of a reference gives it back exactly if it is `#/` and written segments with
    slashes between them. -/
theorem join_split_iff {reference : String} :
    join (split reference) = reference ↔
      ∃ pieces, (∀ piece ∈ pieces, Written piece) ∧ reference = "#/" ++ "/".intercalate pieces := by
  constructor
  · intro h
    refine ⟨(split reference).map escape, fun piece hpiece => ?_, h.symm⟩
    obtain ⟨segment, hsegment, rfl⟩ := List.mem_map.1 hpiece
    refine written_iff.2 ⟨segment, ?_, rfl⟩
    -- The segments are those of the joined reference, where the empty ones are lost.
    rw [← h, split_join_eq] at hsegment
    simpa using (List.mem_filter.1 hsegment).2
  · rintro ⟨pieces, hpieces, rfl⟩
    obtain ⟨segments, hsegments, rfl⟩ := exists_map_escape_eq hpieces
    change join (split (join segments)) = join segments
    rw [split_join hsegments]

/-- A joined reference splits into the segments that are not empty; a child has the segments of its
    parent and its own, unless that is empty; and a reference that is `#/` and one or more written
    segments, with slashes between them, is joined again from its segments. -/
theorem split_join_and_back :
    (∀ segments, split (join segments) = segments.filter (· ≠ "")) ∧
    (∀ reference segment, split (child reference segment) =
      if segment = "" then split reference else split reference ++ [segment]) ∧
    ∀ pieces, pieces ≠ [] → (∀ piece ∈ pieces, Written piece) →
      join (split ("#/" ++ "/".intercalate pieces)) = "#/" ++ "/".intercalate pieces := by
  refine ⟨split_join_eq, fun reference segment => ?_, fun pieces _ hpieces => ?_⟩
  · split
    · next hempty => rw [hempty, split_child_eq]; exact List.append_nil _
    · next hne => exact split_child reference hne
  · exact join_split_iff.2 ⟨pieces, hpieces, rfl⟩

/-- The segments `~`, `/b` and `~1` are joined and found again. -/
theorem split_join_and_back_escapes :
    (∀ piece ∈ ["~0", "~1b", "~01"], Written piece) ∧ split "#/~0/~1b/~01" = ["~", "/b", "~1"] ∧
      join (split "#/~0/~1b/~01") = "#/~0/~1b/~01" := by
  have hpieces : ∀ piece ∈ ["~0", "~1b", "~01"], Written piece := by
    intro piece hpiece
    simp only [List.mem_cons, List.not_mem_nil, or_false] at hpiece
    rcases hpiece with rfl | rfl | rfl
    · exact written_iff.2 ⟨"~", by decide, by decide⟩
    · exact written_iff.2 ⟨"/b", by decide, by decide⟩
    · exact written_iff.2 ⟨"~1", by decide, by decide⟩
  have htext : "#/" ++ "/".intercalate ["~0", "~1b", "~01"] = "#/~0/~1b/~01" := by decide
  have hjoin := split_join_and_back.2.2 _ (List.cons_ne_nil _ _) hpieces
  rw [htext] at hjoin
  exact ⟨hpieces, by decide, hjoin⟩

end Typewright.Pointer
