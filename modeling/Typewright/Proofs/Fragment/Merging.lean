import Typewright.Proofs.Fragment.Priority

/-!
# Merging the same fragments again

A merge drops what is declared anew and adds the fragments that last (`Fragment.combine_eq`): of the
fragments that come, a concrete one if no other declaration of its reference follows, and an assumed one
if its reference is new and not declared later.

When the same fragments come once more, the assumed ones change nothing, and the concrete ones go to the
end.  So a second merge keeps all fragments, and a third one changes nothing.  The second one keeps the
order, too, exactly if the assumed fragments that last come before the concrete ones
(`Fragment.combine_combine_eq_iff`); a declaration in front of the first mention of something else is
moved behind it (`Fragment.combine_combine_ne_cityWithMention`).
-/

namespace Typewright.Fragment

variable {store incoming rest before after : List Fragment} {fragment : Fragment} {reference : String}

/-! ### What lasts -/

/-- Whether one of the fragments declares something under the reference. -/
def declares (fragments : List Fragment) (reference : String) : Bool :=
  fragments.any (isConcreteOf reference)

/-- Whether nothing is left in the end of a fragment that comes before the others: it is replaced
    later, or it is assumed and its reference is stored already. -/
def leavesNothing (store : List Fragment) (fragment : Fragment) (rest : List Fragment) : Bool :=
  declares rest fragment.reference || (fragment.isAssumed && isStored store fragment.reference)

/-- The fragments that are in the store in the end because they came. -/
def lasting (store : List Fragment) : List Fragment → List Fragment
  | [] => []
  | fragment :: rest =>
    if leavesNothing store fragment rest then lasting (put store fragment) rest
    else fragment :: lasting (put store fragment) rest

theorem declares_iff : declares incoming reference = true ↔ Declared incoming reference := by
  simp [declares, Declared, isConcreteOf, and_comm]

theorem declares_eq_false_iff : declares incoming reference = false ↔ ¬ Declared incoming reference := by
  rw [← declares_iff, Bool.not_eq_true]

theorem declares_cons (fragment : Fragment) (rest : List Fragment) (reference : String) :
    declares (fragment :: rest) reference =
      (isConcreteOf reference fragment || declares rest reference) :=
  List.any_cons

theorem declares_of_mem (h : fragment ∈ incoming) (hconcrete : fragment.isAssumed = false) :
    declares incoming fragment.reference = true :=
  declares_iff.2 ⟨fragment, h, rfl, hconcrete⟩

theorem leavesNothing_of_concrete (h : fragment.isAssumed = false) (store rest : List Fragment) :
    leavesNothing store fragment rest = declares rest fragment.reference := by
  rw [leavesNothing, h, Bool.false_and, Bool.or_false]

theorem leavesNothing_assumed_iff :
    leavesNothing store (assumed reference) rest = false ↔
      ¬ Stored store reference ∧ ¬ Declared rest reference := by
  rw [leavesNothing, Bool.or_eq_false_iff, declares_eq_false_iff, and_comm]
  simp [isAssumed, Fragment.reference, ← isStored_iff]

/-- Of the new fragment and of what was stored, what is declared later is dropped. -/
theorem filter_put (store rest : List Fragment) (fragment : Fragment) :
    (put store fragment).filter (fun other => !declares rest other.reference) =
      store.filter (fun other => !declares (fragment :: rest) other.reference) ++
        if leavesNothing store fragment rest then [] else [fragment] := by
  cases hassumed : fragment.isAssumed with
  | true =>
    have hnone : declares (fragment :: rest) = declares rest := by
      funext reference
      rw [declares_cons, isConcreteOf, hassumed, Bool.not_true, Bool.false_and, Bool.false_or]
    rw [put, if_pos hassumed, hnone, leavesNothing, hassumed]
    cases isStored store fragment.reference with
    | true => simp
    | false => cases hlater : declares rest fragment.reference <;> simp [hlater]
  | false =>
    -- A concrete fragment takes the place of those stored under its reference.
    have hkept : store.filter (fun other => !declares (fragment :: rest) other.reference) =
        (store.filter (·.reference != fragment.reference)).filter
          fun other => !declares rest other.reference := by
      rw [List.filter_filter]
      refine List.filter_congr fun other _ => ?_
      rw [declares_cons, isConcreteOf, hassumed, Bool.not_false, Bool.true_and, Bool.not_or,
        Bool.and_comm, bne, BEq.comm]
    rw [put, if_neg (by rw [hassumed]; exact Bool.false_ne_true), List.filter_append, hkept,
      leavesNothing_of_concrete hassumed]
    cases hlater : declares rest fragment.reference <;> simp [hlater]

/-- A merge drops what is declared anew and adds what lasts. -/
theorem combine_eq (store incoming : List Fragment) :
    combine store incoming =
      store.filter (fun other => !declares incoming other.reference) ++ lasting store incoming := by
  induction incoming generalizing store with
  | nil =>
    rw [lasting, List.append_nil]
    exact (List.filter_eq_self.2 fun _ _ => rfl).symm
  | cons fragment rest ih =>
    rw [combine_cons, ih, filter_put, lasting, List.append_assoc]
    split <;> rfl

/-! ### What lasts of assumed and of concrete fragments -/

/-- The reference is assumed where it is new, and is not declared afterwards. -/
structure FirstAssumed (store incoming before : List Fragment) (reference : String)
    (after : List Fragment) : Prop where
  eq_append : incoming = before ++ assumed reference :: after
  not_stored : ¬ Stored store reference
  not_before : ¬ Stored before reference
  not_declared : ¬ Declared after reference

theorem stored_put_iff : Stored (put store fragment) reference ↔
    Stored store reference ∨ reference = fragment.reference := by
  constructor
  · intro h
    obtain ⟨other, hother, rfl⟩ := List.mem_map.1 h
    exact (mem_put hother).imp List.mem_map_of_mem (congrArg Fragment.reference)
  · rintro (h | rfl)
    · exact h.put fragment
    · exact stored_put_self

theorem stored_cons_iff : Stored (fragment :: rest) reference ↔
    reference = fragment.reference ∨ Stored rest reference :=
  List.mem_cons

/-- A reference is first assumed by the first fragment or by one of those that come after it. -/
theorem firstAssumed_cons_iff :
    FirstAssumed store (fragment :: rest) before reference after ↔
      (before = [] ∧ fragment = assumed reference ∧ rest = after ∧ ¬ Stored store reference ∧
          ¬ Declared after reference) ∨
        ∃ before', before = fragment :: before' ∧
          FirstAssumed (put store fragment) rest before' reference after := by
  constructor
  · intro h
    -- Nothing comes before the assumption, or this fragment does.
    cases before with
    | nil =>
      obtain ⟨hfragment, hrest⟩ := List.cons.inj h.eq_append
      exact .inl ⟨rfl, hfragment, hrest, h.not_stored, h.not_declared⟩
    | cons first before' =>
      obtain ⟨rfl, hrest⟩ := List.cons.inj h.eq_append
      obtain ⟨hne, hbefore⟩ := not_or.1 (mt stored_cons_iff.2 h.not_before)
      refine .inr ⟨before', rfl, hrest, fun hstored => ?_, hbefore, h.not_declared⟩
      exact (stored_put_iff.1 hstored).elim h.not_stored hne
  · rintro (⟨rfl, rfl, rfl, hstored, hdeclared⟩ | ⟨before', rfl, h⟩)
    · exact ⟨rfl, hstored, List.not_mem_nil, hdeclared⟩
    · obtain ⟨hstored, hne⟩ := not_or.1 (mt stored_put_iff.2 h.not_stored)
      refine ⟨congrArg (fragment :: ·) h.eq_append, hstored, fun hbefore => ?_, h.not_declared⟩
      exact (stored_cons_iff.1 hbefore).elim hne h.not_before

theorem mem_of_mem_lasting (h : fragment ∈ lasting store incoming) : fragment ∈ incoming := by
  induction incoming generalizing store with
  | nil => exact h
  | cons first rest ih =>
    rw [lasting] at h
    split at h
    · exact List.mem_cons_of_mem _ (ih h)
    · rcases List.mem_cons.1 h with rfl | h
      · exact List.mem_cons_self
      · exact List.mem_cons_of_mem _ (ih h)

/-- An assumed fragment lasts if its reference is first assumed somewhere. -/
theorem assumed_mem_lasting_iff :
    assumed reference ∈ lasting store incoming ↔
      ∃ before after, FirstAssumed store incoming before reference after := by
  induction incoming generalizing store with
  | nil =>
    refine ⟨fun h => absurd h List.not_mem_nil, ?_⟩
    rintro ⟨before, after, h⟩
    exact absurd h.eq_append.symm (by simp)
  | cons fragment rest ih =>
    have hlater : (∃ before after, FirstAssumed (put store fragment) rest before reference after) →
        ∃ before after, FirstAssumed store (fragment :: rest) before reference after := by
      rintro ⟨before, after, h⟩
      exact ⟨_, _, firstAssumed_cons_iff.2 (.inr ⟨before, rfl, h⟩)⟩
    -- The first assumption that lasts is this fragment, or one among those that come after it.
    have hcases : (∃ before after, FirstAssumed store (fragment :: rest) before reference after) →
        (fragment = assumed reference ∧ leavesNothing store fragment rest = false) ∨
          ∃ before after, FirstAssumed (put store fragment) rest before reference after := by
      rintro ⟨before, after, h⟩
      rcases firstAssumed_cons_iff.1 h with ⟨-, rfl, rfl, hstored, hdeclared⟩ | ⟨before', -, h⟩
      · exact .inl ⟨rfl, leavesNothing_assumed_iff.2 ⟨hstored, hdeclared⟩⟩
      · exact .inr ⟨before', after, h⟩
    rw [lasting]
    split
    · next hnothing =>
      rw [ih]
      refine ⟨hlater, fun h => (hcases h).resolve_left fun hfirst => ?_⟩
      exact Bool.noConfusion (hnothing.symm.trans hfirst.2)
    · next hleaves =>
      rw [List.mem_cons, ih]
      refine ⟨?_, fun h => (hcases h).imp (fun hfirst => hfirst.1.symm) id⟩
      rintro (rfl | h)
      · obtain ⟨hstored, hdeclared⟩ := leavesNothing_assumed_iff.1 (Bool.not_eq_true _ ▸ hleaves)
        exact ⟨[], rest, firstAssumed_cons_iff.2 (.inl ⟨rfl, rfl, rfl, hstored, hdeclared⟩)⟩
      · exact hlater h

theorem FirstAssumed.declares_eq_false (h : FirstAssumed store incoming before reference after) :
    declares incoming reference = false := by
  rw [declares_eq_false_iff, h.eq_append]
  rintro ⟨fragment, hfragment, rfl, hconcrete⟩
  rcases List.mem_append.1 hfragment with hfragment | hfragment
  · exact h.not_before (List.mem_map_of_mem hfragment)
  · rcases List.mem_cons.1 hfragment with hassumed | hfragment
    · rw [hassumed] at hconcrete
      exact Bool.noConfusion hconcrete
    · exact h.not_declared ⟨fragment, hfragment, rfl, hconcrete⟩

/-- What lasts is declared by what came, unless it is assumed. -/
theorem declares_of_mem_lasting (h : fragment ∈ lasting store incoming) :
    declares incoming fragment.reference = !fragment.isAssumed := by
  cases hassumed : fragment.isAssumed with
  | true =>
    rw [isAssumed_eq_true hassumed] at h
    obtain ⟨before, after, hfirst⟩ := assumed_mem_lasting_iff.1 h
    exact hfirst.declares_eq_false
  | false => exact declares_of_mem (mem_of_mem_lasting h) hassumed

/-- Which declarations last does not depend on what was stored. -/
theorem filter_concrete_lasting (store store' incoming : List Fragment) :
    (lasting store incoming).filter (!·.isAssumed) =
      (lasting store' incoming).filter (!·.isAssumed) := by
  induction incoming generalizing store store' with
  | nil => rfl
  | cons fragment rest ih =>
    have hrest := ih (put store fragment) (put store' fragment)
    cases hassumed : fragment.isAssumed with
    | true =>
      rw [lasting, lasting]
      split <;> split <;> simpa [hassumed] using hrest
    | false =>
      rw [lasting, lasting, leavesNothing_of_concrete hassumed, leavesNothing_of_concrete hassumed]
      split <;> simpa [hassumed] using hrest

/-! ### Merging again -/

/-- Where all references of the fragments are stored, only declarations last. -/
theorem combine_of_stored (h : ∀ reference, Stored incoming reference → Stored store reference)
    (store' : List Fragment) :
    combine store incoming = store.filter (fun other => !declares incoming other.reference) ++
      (lasting store' incoming).filter (!·.isAssumed) := by
  have hconcrete : ∀ fragment ∈ lasting store incoming, (!fragment.isAssumed) = true := by
    intro fragment hfragment
    rw [Bool.not_eq_true']
    by_contra hassumed
    rw [Bool.not_eq_false] at hassumed
    have hmem := mem_of_mem_lasting hfragment
    rw [isAssumed_eq_true hassumed] at hfragment
    obtain ⟨before, after, hfirst⟩ := assumed_mem_lasting_iff.1 hfragment
    exact hfirst.not_stored (h _ (List.mem_map_of_mem hmem))
  rw [combine_eq, ← filter_concrete_lasting store, List.filter_eq_self.2 hconcrete]

/-- What a merge leaves of references that are not declared anew: what was stored and what is assumed. -/
theorem filter_combine (store incoming : List Fragment) :
    (combine store incoming).filter (fun other => !declares incoming other.reference) =
      store.filter (fun other => !declares incoming other.reference) ++
        (lasting store incoming).filter (·.isAssumed) := by
  rw [combine_eq, List.filter_append, List.filter_filter]
  congr 1
  · simp only [Bool.and_self]
  · exact List.filter_congr fun other hother => by rw [declares_of_mem_lasting hother, Bool.not_not]

/-- The second merge puts the declarations that last behind all other fragments. -/
theorem combine_combine (store incoming : List Fragment) :
    combine (combine store incoming) incoming =
      store.filter (fun other => !declares incoming other.reference) ++
        ((lasting store incoming).filter (·.isAssumed) ++
          (lasting store incoming).filter (!·.isAssumed)) := by
  rw [combine_of_stored (fun _ => stored_combine) store, filter_combine, List.append_assoc]

/-- From the second merge on, nothing changes. -/
theorem combine_combine_combine (store incoming : List Fragment) :
    combine (combine (combine store incoming) incoming) incoming =
      combine (combine store incoming) incoming := by
  have hstored : ∀ reference, Stored incoming reference →
      Stored (combine (combine store incoming) incoming) reference := fun _ => stored_combine
  have hdeclared : ∀ other ∈ (lasting store incoming).filter (!·.isAssumed),
      (!declares incoming other.reference) = false := by
    intro other hother
    obtain ⟨hlasting, hconcrete⟩ := List.mem_filter.1 hother
    rw [declares_of_mem_lasting hlasting, hconcrete, Bool.not_true]
  rw [combine_of_stored hstored store, combine_of_stored (fun _ => stored_combine) store,
    List.filter_append, List.filter_filter, List.filter_eq_nil_iff.2 fun other hother =>
      Bool.eq_false_iff.1 (hdeclared other hother), List.append_nil]
  simp only [Bool.and_self]

/-! ### The order -/

/-- Putting what has a property first moves nothing exactly if nothing with it follows anything
    without it. -/
theorem filter_append_filter_not_eq_iff {α : Type} {p : α → Bool} {xs : List α} :
    xs.filter p ++ xs.filter (!p ·) = xs ↔ xs.Pairwise fun x y => p y = true → p x = true := by
  induction xs with
  | nil => simp
  | cons x xs ih =>
    rw [List.pairwise_cons, ← ih]
    cases hx : p x with
    | true => simp [hx]
    | false =>
      simp only [Bool.false_eq_true, imp_false]
      rw [List.filter_cons_of_neg (by simp [hx]), List.filter_cons_of_pos (by simp [hx])]
      constructor
      · intro h
        -- Else the list would start with an element that has the property.
        have hnone : xs.filter p = [] := by
          cases hfirst : xs.filter p with
          | nil => rfl
          | cons first others =>
            rw [hfirst, List.cons_append, List.cons.injEq] at h
            have hp := (List.mem_filter.1 (hfirst ▸ List.mem_cons_self)).2
            rw [h.1, hx] at hp
            exact Bool.noConfusion hp
        rw [hnone, List.nil_append, List.cons.injEq] at h
        refine ⟨fun y hy hp => ?_, by rw [hnone, List.nil_append, h.2]⟩
        exact List.filter_eq_nil_iff.1 hnone y hy hp
      · rintro ⟨hnone, h⟩
        have hnil : xs.filter p = [] := List.filter_eq_nil_iff.2 fun y hy => hnone y hy
        rw [hnil, List.nil_append] at h ⊢
        rw [h]

/-- Whatever is declared before a reference is first assumed is declared again afterwards. -/
def AssumesFirst (store incoming : List Fragment) : Prop :=
  ∀ before reference after, FirstAssumed store incoming before reference after →
    ∀ fragment ∈ before, fragment.isAssumed = false → Declared after fragment.reference

theorem assumesFirst_cons_iff : AssumesFirst store (fragment :: rest) ↔
    (∀ before reference after, FirstAssumed (put store fragment) rest before reference after →
      fragment.isAssumed = false → Declared after fragment.reference) ∧
        AssumesFirst (put store fragment) rest := by
  constructor
  · intro h
    have hcons {before reference after}
        (hfirst : FirstAssumed (put store fragment) rest before reference after) :=
      h _ _ _ (firstAssumed_cons_iff.2 (.inr ⟨before, rfl, hfirst⟩))
    exact ⟨fun before reference after hfirst => hcons hfirst fragment List.mem_cons_self,
      fun before reference after hfirst other hother =>
        hcons hfirst other (List.mem_cons_of_mem _ hother)⟩
  · rintro ⟨hfragment, hrest⟩ before reference after hfirst other hother
    rcases firstAssumed_cons_iff.1 hfirst with ⟨rfl, -⟩ | ⟨before', rfl, hlater⟩
    · exact absurd hother List.not_mem_nil
    · rcases List.mem_cons.1 hother with rfl | hother
      · exact hfragment before' reference after hlater
      · exact hrest before' reference after hlater other hother

/-- Of what lasts, the assumed fragments come first if what is declared before them is declared
    again. -/
theorem pairwise_lasting_iff : ((lasting store incoming).Pairwise fun first second =>
    second.isAssumed = true → first.isAssumed = true) ↔ AssumesFirst store incoming := by
  induction incoming generalizing store with
  | nil =>
    refine ⟨fun _ before reference after hfirst => ?_, fun _ => List.Pairwise.nil⟩
    exact absurd hfirst.eq_append.symm (by simp)
  | cons fragment rest ih =>
    rw [assumesFirst_cons_iff, lasting]
    split
    · next hnothing =>
      rw [ih]
      refine ⟨fun h => ⟨fun before reference after hfirst hconcrete => ?_, h⟩, And.right⟩
      -- The fragment is declared again, if not afterwards, then by one that is declared again.
      rw [leavesNothing_of_concrete hconcrete, declares_iff, hfirst.eq_append] at hnothing
      obtain ⟨other, hother, href, hother'⟩ := hnothing
      rw [← href]
      rcases List.mem_append.1 hother with hother | hother
      · exact h before reference after hfirst other hother hother'
      · rcases List.mem_cons.1 hother with hassumed | hother
        · rw [hassumed] at hother'
          exact Bool.noConfusion hother'
        · exact ⟨other, hother, rfl, hother'⟩
    · next hleaves =>
      rw [List.pairwise_cons, ih]
      refine and_congr_left fun _ => ⟨fun h before reference after hfirst hconcrete => ?_,
        fun h other hother hassumed => ?_⟩
      · have hmem := assumed_mem_lasting_iff.2 ⟨before, after, hfirst⟩
        exact Bool.noConfusion (hconcrete.symm.trans (h _ hmem rfl))
      · by_contra hconcrete
        rw [Bool.not_eq_true] at hconcrete hleaves
        rw [leavesNothing_of_concrete hconcrete, declares_eq_false_iff] at hleaves
        rw [isAssumed_eq_true hassumed] at hother
        obtain ⟨before, after, hfirst⟩ := assumed_mem_lasting_iff.1 hother
        obtain ⟨again, hagain, href, hagain'⟩ := h _ _ _ hfirst hconcrete
        refine hleaves ⟨again, ?_, href, hagain'⟩
        rw [hfirst.eq_append]
        exact List.mem_append_right _ (List.mem_cons_of_mem _ hagain)

/-- Merging the same fragments a second time keeps all fragments, and merging them a third time
    changes nothing.  The second merge changes nothing either, exactly if whatever is declared before a
    new reference is first assumed, one that is not declared later, is declared again after that. -/
theorem combine_combine_eq_iff (store incoming : List Fragment) :
    (combine (combine store incoming) incoming).Perm (combine store incoming) ∧
      combine (combine (combine store incoming) incoming) incoming =
        combine (combine store incoming) incoming ∧
      (combine (combine store incoming) incoming = combine store incoming ↔
        ∀ before reference after, FirstAssumed store incoming before reference after →
          ∀ fragment ∈ before, fragment.isAssumed = false → Declared after fragment.reference) := by
  refine ⟨?_, combine_combine_combine store incoming, ?_⟩
  · rw [combine_combine, combine_eq]
    exact (List.filter_append_perm _ _).append_left _
  · rw [combine_combine, combine_eq, List.append_right_inj, filter_append_filter_not_eq_iff]
    exact pairwise_lasting_iff

/-- A declaration of a city, and the mention of another declaration. -/
def cityWithMention : List Fragment :=
  [.declaration "#/components/schemas/City" ["Components", "Schemas", "City"] (.type .string),
    .assumed "#/components/schemas/Country"]

/-- Merging the declaration of a city and a mention again moves the city behind the mention. -/
theorem combine_combine_ne_cityWithMention :
    (([] : List Fragment).map Fragment.reference).Nodup ∧
      combine (combine [] cityWithMention) cityWithMention ≠ combine [] cityWithMention := by
  refine ⟨List.nodup_nil, fun h => ?_⟩
  have hreferences := congrArg (List.map Fragment.reference) h
  exact absurd hreferences (by decide)

end Typewright.Fragment
