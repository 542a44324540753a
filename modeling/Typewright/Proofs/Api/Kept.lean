import Mathlib.Data.List.Nodup
import Mathlib.Data.List.Pairwise
import Typewright.Proofs.Api.FixedPoint
import Typewright.Proofs.Api.Owned

/-!
# What the passes of an expansion keep

The passes keep every concrete fragment if no two of them have the same reference
(`Passes.mem_of_identified`).  The set at the start and each expansion own references of their own;
where the references that are expanded keep clear of what is declared of its own accord, and no
operation is met twice, no two of them own the same reference (`eq_of_claims`), so references identify
what is made (`Passes.identified_of_apart`).
-/

namespace Typewright.Api.Walk

variable {walk : Walk}

/-! ### References that keep clear -/

/-- The reference leads neither into what is declared for operations and enums nor into a response
    among the components. -/
structure Clear (reference : String) : Prop where
  operations : (Pointer.split reference).head? ≠ some "operations"
  enums : (Pointer.split reference).head? ≠ some "enums"
  responses : ∀ name first rest,
    Pointer.split reference ≠ componentsKey :: "responses" :: name :: first :: rest

theorem clear_root : Clear Pointer.root := by
  have hsplit : Pointer.split Pointer.root = [] := by decide
  refine ⟨?_, ?_, fun name first rest => ?_⟩ <;> simp [hsplit]

/-- A reference to a component itself keeps clear. -/
theorem clear_of_split_eq {reference bucket name : String}
    (h : Pointer.split reference = [componentsKey, bucket, name]) : Clear reference := by
  have hhead : (Pointer.split reference).head? = some componentsKey := by rw [h]; rfl
  refine ⟨?_, ?_, fun name' first rest => ?_⟩
  · rw [hhead]; decide
  · rw [hhead]; decide
  · rw [h]; simp

section Claims

variable {reference other own : String} {operations operations' : List String}

theorem InOperation.head?_eq {id : String} (h : InOperation id own) :
    (Pointer.split own).head? = some "operations" := by
  obtain ⟨rest, hrest⟩ := h
  rw [← hrest]
  rfl

theorem InOperation.eq {id id' : String} (h : InOperation id own) (h' : InOperation id' own) :
    id = id' := by
  obtain ⟨rest, hrest⟩ := h
  obtain ⟨rest', hrest'⟩ := h'
  have hsegments := hrest.trans hrest'.symm
  simp only [List.cons_append, List.cons.injEq] at hsegments
  exact hsegments.2.1

theorem BelowResponse.head?_eq (h : BelowResponse reference own) :
    (Pointer.split own).head? = some componentsKey := by
  obtain ⟨name, first, rest, -, hsplit⟩ := h
  rw [hsplit]
  rfl

theorem Clear.not_inOperation {id : String} (h : Clear reference) : ¬ InOperation id reference :=
  fun hin => h.operations hin.head?_eq

theorem Clear.not_belowResponse (h : Clear reference) : ¬ BelowResponse other reference := by
  rintro ⟨name, first, rest, -, hsplit⟩
  exact h.responses name first rest hsplit

theorem BelowResponse.not_inOperation {id : String} (h : BelowResponse reference own) :
    ¬ InOperation id own := by
  intro hin
  have hhead := h.head?_eq.symm.trans hin.head?_eq
  exact absurd hhead (by decide)

/-- The responses that a reference stands below are those of one name. -/
theorem BelowResponse.split_eq (h : BelowResponse reference own) (h' : BelowResponse other own) :
    ∃ name, Pointer.split reference = [componentsKey, "responses", name] ∧
      Pointer.split other = Pointer.split reference := by
  obtain ⟨name, first, rest, hreference, hsplit⟩ := h
  obtain ⟨name', first', rest', hother, hsplit'⟩ := h'
  have hsegments := hsplit.symm.trans hsplit'
  simp only [List.cons.injEq, true_and] at hsegments
  exact ⟨name, hreference, by rw [hother, hreference, hsegments.1]⟩

/-- Two expansions that own one reference are the expansions of one reference, and that is no
    reference of an operation. -/
theorem eq_of_claims (hreference : Clear reference) (hother : Clear other)
    (hspelled : ∀ name, Pointer.split reference = [componentsKey, "responses", name] →
      Pointer.split other = Pointer.split reference → other = reference)
    (hoperations : ∀ id ∈ operations, id ∉ operations')
    (h : Claims reference operations own) (h' : Claims other operations' own) :
    other = reference ∧ (own = reference ∨ BelowResponse reference own) := by
  rcases h with rfl | hbelow | ⟨id, hid, hin⟩
  · -- The reference itself is clear of what other expansions own besides their references.
    rcases h' with rfl | hbelow' | ⟨id', _, hin'⟩
    · exact ⟨rfl, .inl rfl⟩
    · exact absurd hbelow' hreference.not_belowResponse
    · exact absurd hin' hreference.not_inOperation
  · rcases h' with rfl | hbelow' | ⟨id', _, hin'⟩
    · exact absurd hbelow hother.not_belowResponse
    -- Below two responses, the two references have the same segments, and then are spelled alike.
    · obtain ⟨name, hname, hsplit⟩ := hbelow.split_eq hbelow'
      exact ⟨hspelled name hname hsplit, .inr hbelow⟩
    · exact absurd hin' hbelow.not_inOperation
  · rcases h' with rfl | hbelow' | ⟨id', hid', hin'⟩
    · exact absurd hin hother.not_inOperation
    · exact absurd hin hbelow'.not_inOperation
    -- What lies in an operation tells the id of the operation.
    · exact absurd (hin.eq hin' ▸ hid') (hoperations id hid)

/-- Enums are declared under references that no expansion owns. -/
theorem not_claims_of_isEnum {final : EnumNames} {fragment : Fragment} (hreference : Clear reference)
    (h : fragment.IsEnum final) : ¬ Claims reference operations fragment.reference := by
  obtain ⟨name, hsplit⟩ := h.split_eq
  have hhead : (Pointer.split fragment.reference).head? = some "enums" := by rw [hsplit]; rfl
  rintro (heq | hbelow | ⟨id, -, hin⟩)
  · exact hreference.enums (heq ▸ hhead)
  · exact absurd (hbelow.head?_eq.symm.trans hhead) (by decide)
  · exact absurd (hin.head?_eq.symm.trans hhead) (by decide)

/-- Concrete fragments of one reference in two sets are equal, or the sets came of one reference. -/
theorem eq_or_of_reference_eq {final : EnumNames} {set set' : FragmentSet}
    (hreference : Clear reference) (hother : Clear other)
    (hspelled : ∀ name, Pointer.split reference = [componentsKey, "responses", name] →
      Pointer.split other = Pointer.split reference → other = reference)
    (hoperations : ∀ id ∈ operations, id ∉ operations')
    (hset : set.Owned final (Claims reference operations))
    (hset' : set'.Owned final (Claims other operations')) {fragment fragment' : Fragment}
    (hfragment : fragment ∈ set.fragments) (hconcrete : fragment.isAssumed = false)
    (hfragment' : fragment' ∈ set'.fragments) (hconcrete' : fragment'.isAssumed = false)
    (href : fragment'.reference = fragment.reference) :
    fragment' = fragment ∨ (other = reference ∧
      (fragment.reference = reference ∨ BelowResponse reference fragment.reference)) := by
  -- Claimed references and those of enums never meet, so both fragments are claimed or both are
  -- enums.
  rcases hset.concrete fragment hfragment hconcrete with hclaims | henum
  · rcases hset'.concrete fragment' hfragment' hconcrete' with hclaims' | henum'
    · rw [href] at hclaims'
      exact .inr (eq_of_claims hreference hother hspelled hoperations hclaims hclaims')
    · rw [← href] at hclaims
      exact absurd hclaims (not_claims_of_isEnum hreference henum')
  · rcases hset'.concrete fragment' hfragment' hconcrete' with hclaims' | henum'
    · rw [href] at hclaims'
      exact absurd hclaims' (not_claims_of_isEnum hother henum)
    · exact .inl (henum'.eq_of_reference_eq henum href)

end Claims

/-! ### Sets put together -/

section Fold

variable {set : FragmentSet} {expansions : List Expansion} {fragment : Fragment}

/-- The set with what came of the expansions added in order. -/
def addAll (set : FragmentSet) (expansions : List Expansion) : FragmentSet :=
  expansions.foldl (fun set expansion => set.extend expansion.emitted) set

theorem addAll_append (set : FragmentSet) (first others : List Expansion) :
    addAll set (first ++ others) = addAll (addAll set first) others :=
  List.foldl_append

theorem mem_addAll_of_mem (h : fragment ∈ set.fragments)
    (hkeep : ∀ expansion ∈ expansions, ∀ other ∈ expansion.emitted.fragments,
      other.isAssumed = false → other.reference = fragment.reference → other = fragment) :
    fragment ∈ (addAll set expansions).fragments := by
  induction expansions generalizing set with
  | nil => exact h
  | cons expansion rest ih =>
    refine ih ?_ fun expansion hmem => hkeep expansion (List.mem_cons_of_mem _ hmem)
    exact Fragment.mem_combine_of_mem h (hkeep expansion List.mem_cons_self)

theorem mem_addAll_of_emitted {expansion : Expansion} (hexpansion : expansion ∈ expansions)
    (hnodup : (expansion.emitted.fragments.map Fragment.reference).Nodup)
    (h : fragment ∈ expansion.emitted.fragments) (hconcrete : fragment.isAssumed = false)
    (hkeep : ∀ expansion ∈ expansions, ∀ other ∈ expansion.emitted.fragments,
      other.isAssumed = false → other.reference = fragment.reference → other = fragment) :
    fragment ∈ (addAll set expansions).fragments := by
  induction expansions generalizing set with
  | nil => exact absurd hexpansion List.not_mem_nil
  | cons first rest ih =>
    have hrest := fun expansion hmem => hkeep expansion (List.mem_cons_of_mem _ hmem)
    rcases List.mem_cons.1 hexpansion with rfl | hexpansion
    · have hadded : fragment ∈ (set.extend expansion.emitted).fragments :=
        Fragment.mem_combine_of_incoming hnodup h hconcrete
      change fragment ∈ (addAll (set.extend expansion.emitted) rest).fragments
      exact mem_addAll_of_mem hadded hrest
    · exact ih hexpansion hrest

end Fold

/-! ### Passes -/

section Passes

variable {initial set set' : FragmentSet} {names names' final : EnumNames} {expanded : List String}
  {expansions pass : List Expansion} {passes : List (List Expansion)}

theorem Expands.eq_addAll (h : walk.Expands set names expansions set' names') :
    set' = addAll set expansions := by
  induction h with
  | nil => rfl
  | cons _ _ ih => exact ih

theorem Passes.eq_addAll (h : walk.Passes expanded set names passes set' names') :
    set' = addAll set passes.flatten := by
  induction h with
  | nil => rfl
  | cons _ _ hpass _ ih => rw [ih, hpass.eq_addAll, List.flatten_cons, addAll_append]

/-- What came of each expansion is among what it owns. -/
theorem Expands.owned (h : walk.Expands set names expansions set' names') (final : EnumNames) :
    names.Extends names' ∧ (names'.Extends final → ∀ expansion ∈ expansions,
      expansion.emitted.Owned final (Claims expansion.reference expansion.emitted.operations)) := by
  induction h with
  | nil set names => exact ⟨.refl names, fun _ expansion hmem => absurd hmem List.not_mem_nil⟩
  | cons first others ih =>
    obtain ⟨hextends, howned⟩ := givesWithin_expand walk _ _ _ _ first
    refine ⟨hextends.trans ih.1, fun hfinal => List.forall_mem_cons.2 ⟨?_, ih.2 hfinal⟩⟩
    exact howned (ih.1.trans hfinal)

theorem Passes.owned (h : walk.Passes expanded set names passes set' names') (final : EnumNames) :
    names.Extends names' ∧ (names'.Extends final → ∀ expansion ∈ passes.flatten,
      expansion.emitted.Owned final (Claims expansion.reference expansion.emitted.operations)) := by
  induction h with
  | nil expanded set names => exact ⟨.refl names, fun _ expansion hmem => absurd hmem List.not_mem_nil⟩
  | cons _ _ hpass _ ih =>
    obtain ⟨hextends, howned⟩ := hpass.owned final
    refine ⟨hextends.trans ih.1, fun hfinal => ?_⟩
    rw [List.flatten_cons]
    exact List.forall_mem_append.2 ⟨howned (ih.1.trans hfinal), ih.2 hfinal⟩

/-- What is declared at the start is not expanded. -/
theorem Passes.notMem_of_declared (h : walk.Passes expanded set names passes set' names')
    (hnodup : (set.fragments.map Fragment.reference).Nodup) {reference : String}
    (hdeclared : set.Declared reference) : reference ∉ expandedIn passes.flatten := by
  induction h with
  | nil => exact List.not_mem_nil
  | cons hpending _ hpass _ ih =>
    rw [List.flatten_cons, expandedIn_append, List.mem_append, hpending, mem_pending]
    rintro (⟨hassumed, -⟩ | hlater)
    · -- The fragment of a reference is unique, so it cannot be both assumed and concrete.
      obtain ⟨fragment, hfragment, href, hconcrete⟩ := hdeclared
      have heq := List.inj_on_of_nodup_map hnodup hfragment
        (FragmentSet.mem_assumedReferences.1 hassumed) href
      rw [heq] at hconcrete
      exact absurd hconcrete (by simp [Fragment.isAssumed])
    · exact ih (hpass.nodup hnodup) (hpass.declared hdeclared) hlater

/-- The references that are expanded keep clear, a response among the components is referred to in one
    way, and no operation is met twice. -/
structure Apart (initial : FragmentSet) (expansions : List Expansion) : Prop where
  clear : ∀ reference ∈ expandedIn expansions, Clear reference
  spelled : ∀ reference ∈ expandedIn expansions, ∀ other ∈ expandedIn expansions, ∀ name,
    Pointer.split reference = [componentsKey, "responses", name] →
      Pointer.split other = Pointer.split reference → other = reference
  operations : (initial.operations ++ expansions.flatMap (·.emitted.operations)).Nodup

theorem Apart.notMem_operations (h : Apart initial expansions) {expansion : Expansion}
    (hmem : expansion ∈ expansions) {id : String} (hid : id ∈ initial.operations) :
    id ∉ expansion.emitted.operations := by
  intro hid'
  have hdisjoint := (List.nodup_append'.1 h.operations).2.2
  exact hdisjoint hid (List.mem_flatMap.2 ⟨expansion, hmem, hid'⟩)

theorem Apart.disjoint_operations (h : Apart initial expansions) {expansion other : Expansion}
    (hmem : expansion ∈ expansions) (hother : other ∈ expansions) (hne : expansion ≠ other)
    {id : String} (hid : id ∈ expansion.emitted.operations) : id ∉ other.emitted.operations := by
  have hpairwise := (List.nodup_flatMap.1 (List.nodup_append'.1 h.operations).2.1).2
  have hsymm : Std.Symm (Function.onFun List.Disjoint fun expansion : Expansion =>
      expansion.emitted.operations) := ⟨fun _ _ hdisjoint => hdisjoint.symm⟩
  exact fun hid' => hpairwise.forall hmem hother hne hid hid'

/-- Where all is apart, the concrete fragments of two expansions that have one reference are equal. -/
theorem eq_of_reference_eq (hapart : Apart initial expansions) (hnodup : (expandedIn expansions).Nodup)
    (howned : ∀ expansion ∈ expansions,
      expansion.emitted.Owned final (Claims expansion.reference expansion.emitted.operations))
    {expansion other : Expansion} (hexpansion : expansion ∈ expansions) (hother : other ∈ expansions)
    {fragment fragment' : Fragment} (hfragment : fragment ∈ expansion.emitted.fragments)
    (hconcrete : fragment.isAssumed = false) (hfragment' : fragment' ∈ other.emitted.fragments)
    (hconcrete' : fragment'.isAssumed = false) (href : fragment'.reference = fragment.reference) :
    fragment' = fragment := by
  have hreference : expansion.reference ∈ expandedIn expansions := List.mem_map_of_mem hexpansion
  have hreference' : other.reference ∈ expandedIn expansions := List.mem_map_of_mem hother
  by_cases heq : expansion = other
  · subst heq
    exact List.inj_on_of_nodup_map (howned expansion hexpansion).nodup hfragment' hfragment href
  · refine (eq_or_of_reference_eq (hapart.clear _ hreference) (hapart.clear _ hreference')
      (hapart.spelled _ hreference _ hreference')
      (fun id hid => hapart.disjoint_operations hexpansion hother heq hid) (howned expansion hexpansion)
      (howned other hother) hfragment hconcrete hfragment' hconcrete' href).resolve_right ?_
    -- No reference is expanded twice.
    rintro ⟨hsame, -⟩
    exact heq (List.inj_on_of_nodup_map hnodup hexpansion hother hsame.symm)

/-- The same for a fragment of the set at the start and one of an expansion. -/
theorem eq_of_reference_eq_initial (hpasses : walk.Passes [] initial names passes set names')
    (hapart : Apart initial passes.flatten)
    (hinitial : initial.Owned final (Claims Pointer.root initial.operations))
    {expansion : Expansion} (hexpansion : expansion ∈ passes.flatten)
    (howned : expansion.emitted.Owned final
      (Claims expansion.reference expansion.emitted.operations))
    {fragment other : Fragment} (hfragment : fragment ∈ initial.fragments)
    (hconcrete : fragment.isAssumed = false) (hother : other ∈ expansion.emitted.fragments)
    (hconcrete' : other.isAssumed = false) (href : other.reference = fragment.reference) :
    other = fragment := by
  have hreference : expansion.reference ∈ expandedIn passes.flatten := List.mem_map_of_mem hexpansion
  have hresponse (name : String) : Pointer.split Pointer.root ≠ [componentsKey, "responses", name] := by
    rw [show Pointer.split Pointer.root = [] by decide]
    exact (List.cons_ne_nil _ _).symm
  refine (eq_or_of_reference_eq clear_root (hapart.clear _ hreference)
    (fun name hname => absurd hname (hresponse name))
    (fun id hid => hapart.notMem_operations hexpansion hid) hinitial howned hfragment hconcrete hother
    hconcrete' href).resolve_right ?_
  -- Both would be the root, and the root is not expanded when it is declared at the start.
  rintro ⟨hroot, hown | ⟨name, _, _, hname, -⟩⟩
  · exact absurd (hroot ▸ hreference)
      (hpasses.notMem_of_declared hinitial.nodup ⟨fragment, hfragment, hown, hconcrete⟩)
  · exact absurd hname (hresponse name)

/-- The fragment is concrete, and came at the start or of an expansion. -/
def Makes (initial : FragmentSet) (expansions : List Expansion) (fragment : Fragment) : Prop :=
  fragment.isAssumed = false ∧ (fragment ∈ initial.fragments ∨
    ∃ expansion ∈ expansions, fragment ∈ expansion.emitted.fragments)

/-- References identify what is made. -/
def Identified (initial : FragmentSet) (expansions : List Expansion) : Prop :=
  ∀ fragment other, Makes initial expansions fragment → Makes initial expansions other →
    other.reference = fragment.reference → other = fragment

/-- Where all is apart, references identify what is made. -/
theorem Passes.identified_of_apart (h : walk.Passes [] initial names passes set names')
    (hapart : Apart initial passes.flatten) (hnodup : (expandedIn passes.flatten).Nodup)
    (hinitial : initial.Owned names' (Claims Pointer.root initial.operations)) :
    Identified initial passes.flatten := by
  have howned := (h.owned names').2 (.refl names')
  rintro fragment other ⟨hconcrete, hfragment | ⟨expansion, hexpansion, hfragment⟩⟩
    ⟨hconcrete', hother | ⟨expansion', hexpansion', hother⟩⟩ href
  · exact List.inj_on_of_nodup_map hinitial.nodup hother hfragment href
  · exact eq_of_reference_eq_initial h hapart hinitial hexpansion' (howned _ hexpansion')
      hfragment hconcrete hother hconcrete' href
  · exact (eq_of_reference_eq_initial h hapart hinitial hexpansion (howned _ hexpansion)
      hother hconcrete' hfragment hconcrete href.symm).symm
  · exact eq_of_reference_eq hapart hnodup howned hexpansion hexpansion' hfragment hconcrete hother
      hconcrete' href

/-- Where references identify what is made, all of it is in the set at the end. -/
theorem Passes.mem_of_identified (h : walk.Passes [] initial names passes set names')
    (hidentified : Identified initial passes.flatten) {fragment : Fragment}
    (hmakes : Makes initial passes.flatten fragment) : fragment ∈ set.fragments := by
  have hkeep (expansion : Expansion) (hexpansion : expansion ∈ passes.flatten) (other : Fragment)
      (hother : other ∈ expansion.emitted.fragments) (hconcrete : other.isAssumed = false) :
      other.reference = fragment.reference → other = fragment :=
    hidentified fragment other hmakes ⟨hconcrete, .inr ⟨expansion, hexpansion, hother⟩⟩
  rw [h.eq_addAll]
  obtain ⟨hconcrete, hfragment | ⟨expansion, hexpansion, hfragment⟩⟩ := hmakes
  · exact mem_addAll_of_mem hfragment hkeep
  · have howned := (h.owned names').2 (.refl names') expansion hexpansion
    exact mem_addAll_of_emitted hexpansion howned.nodup hfragment hconcrete hkeep

end Passes

end Typewright.Api.Walk
