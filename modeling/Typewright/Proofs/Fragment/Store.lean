import Mathlib.Data.List.Nodup
import Typewright.Fragment.Set

/-!
# What a store keeps

Storing fragments never loses a reference (`Stored.put`), never brings in anything but the stored
fragment (`mem_put`), keeps the references of a store distinct (`nodup_put`), and never turns a
concrete fragment back into an assumed one (`Declared.put`).
-/

namespace Typewright

namespace Fragment

/-- A fragment of that reference is in the store. -/
def Stored (store : List Fragment) (reference : String) : Prop :=
  reference ∈ store.map Fragment.reference

/-- A concrete fragment of that reference is in the store. -/
def Declared (store : List Fragment) (reference : String) : Prop :=
  ∃ fragment ∈ store, fragment.reference = reference ∧ fragment.isAssumed = false

variable {store incoming : List Fragment} {fragment other : Fragment} {reference : String}

theorem isStored_iff : isStored store reference = true ↔ Stored store reference := by
  simp [isStored, Stored]

theorem Declared.stored (h : Declared store reference) : Stored store reference := by
  obtain ⟨fragment, hmem, rfl, -⟩ := h
  exact List.mem_map_of_mem hmem

theorem mem_assumedReferences : reference ∈ assumedReferences store ↔ assumed reference ∈ store := by
  unfold assumedReferences ofKind
  constructor
  · intro h
    obtain ⟨fragment, hfragment, rfl⟩ := List.mem_map.1 h
    obtain ⟨hmem, hkind⟩ := List.mem_filter.1 hfragment
    cases fragment with
    | assumed reference => exact hmem
    | _ => simp [kind] at hkind
  · intro h
    exact List.mem_map.2 ⟨_, List.mem_filter.2 ⟨h, rfl⟩, rfl⟩

/-- An assumed fragment is determined by its reference. -/
theorem isAssumed_eq_true (h : fragment.isAssumed = true) : fragment = assumed fragment.reference := by
  cases fragment <;> simp_all [isAssumed, Fragment.reference]

/-! ### One fragment -/

/-- What is stored was there or is the new fragment. -/
theorem mem_put (h : other ∈ put store fragment) : other ∈ store ∨ other = fragment := by
  unfold put at h
  split at h
  · split at h
    · exact .inl h
    · rwa [List.mem_append, List.mem_singleton] at h
  · rw [List.mem_append, List.mem_singleton] at h
    exact h.imp_left List.mem_of_mem_filter

/-- A fragment stays unless a concrete one of its reference comes. -/
theorem mem_put_of_mem (h : other ∈ store)
    (hkeep : fragment.isAssumed = true ∨ other.reference ≠ fragment.reference) :
    other ∈ put store fragment := by
  unfold put
  split
  · split
    · exact h
    · exact List.mem_append_left _ h
  · next hconcrete =>
    refine List.mem_append_left _ (List.mem_filter.2 ⟨h, ?_⟩)
    simpa using hkeep.resolve_left hconcrete

/-- A concrete fragment is stored whatever was stored before. -/
theorem mem_put_self (h : fragment.isAssumed = false) : fragment ∈ put store fragment := by
  unfold put
  rw [h]
  exact List.mem_append_right _ (List.mem_singleton_self _)

/-- After a fragment came in, something is stored under its reference. -/
theorem stored_put_self : Stored (put store fragment) fragment.reference := by
  unfold put
  split
  · split
    · next hstored => exact isStored_iff.1 hstored
    · exact List.mem_map_of_mem (List.mem_append_right _ (List.mem_singleton_self _))
  · exact List.mem_map_of_mem (List.mem_append_right _ (List.mem_singleton_self _))

theorem Stored.put (h : Stored store reference) (fragment : Fragment) :
    Stored (Fragment.put store fragment) reference := by
  by_cases href : reference = fragment.reference
  · rw [href]
    exact stored_put_self
  · obtain ⟨other, hmem, rfl⟩ := List.mem_map.1 h
    exact List.mem_map_of_mem (mem_put_of_mem hmem (.inr href))

/-- A concrete fragment is replaced by concrete ones only. -/
theorem Declared.put (h : Declared store reference) (fragment : Fragment) :
    Declared (Fragment.put store fragment) reference := by
  obtain ⟨other, hmem, rfl, hconcrete⟩ := h
  by_cases hassumed : fragment.isAssumed = true
  · exact ⟨other, mem_put_of_mem hmem (.inl hassumed), rfl, hconcrete⟩
  · rw [Bool.not_eq_true] at hassumed
    by_cases href : other.reference = fragment.reference
    · exact ⟨fragment, mem_put_self hassumed, href.symm, hassumed⟩
    · exact ⟨other, mem_put_of_mem hmem (.inr href), rfl, hconcrete⟩

theorem declared_put_self (h : fragment.isAssumed = false) :
    Declared (put store fragment) fragment.reference :=
  ⟨fragment, mem_put_self h, rfl, h⟩

/-- The references of a store stay distinct. -/
theorem nodup_put (h : (store.map Fragment.reference).Nodup) :
    ((put store fragment).map Fragment.reference).Nodup := by
  have happend {rest : List Fragment} (hrest : (rest.map Fragment.reference).Nodup)
      (hnew : ¬ Stored rest fragment.reference) :
      ((rest ++ [fragment]).map Fragment.reference).Nodup := by
    rw [List.map_append, List.nodup_append]
    refine ⟨hrest, List.nodup_singleton _, fun a ha b hb => ?_⟩
    rintro rfl
    rw [List.map_singleton, List.mem_singleton] at hb
    exact hnew (hb ▸ ha)
  -- The new fragment is appended where its reference is not stored, or not stored any more.
  unfold put
  split
  · split
    · exact h
    · next hnew => exact happend h fun hstored => hnew (isStored_iff.2 hstored)
  · refine happend (h.sublist (List.filter_sublist.map _)) fun hstored => ?_
    obtain ⟨other, hother, href⟩ := List.mem_map.1 hstored
    have := (List.mem_filter.1 hother).2
    rw [href] at this
    simp at this

theorem mem_ofKind {kind : Kind} : fragment ∈ ofKind kind store ↔ fragment ∈ store ∧ fragment.kind = kind := by
  rw [ofKind, List.mem_filter, beq_iff_eq]

theorem ofKind_append (kind : Kind) (store others : List Fragment) :
    ofKind kind (store ++ others) = ofKind kind store ++ ofKind kind others :=
  List.filter_append ..

/-- Of a kind of concrete fragments, the stored ones stay in order and the new one comes last, unless it
    replaces one of them. -/
theorem ofKind_put {kind : Kind} (hkind : kind ≠ .assumed)
    (hnew : fragment.isAssumed = false →
      ∀ other ∈ ofKind kind store, other.reference ≠ fragment.reference) :
    ofKind kind (put store fragment) = ofKind kind store ++ ofKind kind [fragment] := by
  unfold put
  split
  · next hassumed =>
    have hnone : ofKind kind [fragment] = [] := by
      rw [isAssumed_eq_true hassumed]
      simpa [ofKind, Fragment.kind] using Ne.symm hkind
    rw [hnone, List.append_nil]
    split
    · rfl
    · rw [ofKind_append, hnone, List.append_nil]
  · next hconcrete =>
    -- What is dropped under the reference of the new fragment is of another kind.
    have hkept : ofKind kind (store.filter (·.reference != fragment.reference)) = ofKind kind store := by
      unfold ofKind
      rw [List.filter_filter]
      refine List.filter_congr fun other hother => ?_
      by_cases hother' : other.kind = kind
      · have hne := hnew (by simpa using hconcrete) other (mem_ofKind.2 ⟨hother, hother'⟩)
        simp [hother', hne]
      · simp [hother']
    rw [ofKind_append, hkept]

/-! ### Many fragments -/

/-- Fragments come in one after the other. -/
theorem combine_cons (store incoming : List Fragment) (fragment : Fragment) :
    combine store (fragment :: incoming) = combine (put store fragment) incoming := rfl

/-- What every `put` keeps, storing many fragments keeps. -/
theorem combine_induction {P : List Fragment → Prop} (h : P store)
    (hput : ∀ store fragment, fragment ∈ incoming → P store → P (put store fragment)) :
    P (combine store incoming) := by
  induction incoming generalizing store with
  | nil => exact h
  | cons fragment incoming ih =>
    rw [combine_cons]
    exact ih (hput _ _ List.mem_cons_self h) fun store other hother =>
      hput store other (List.mem_cons_of_mem _ hother)

/-- Merging makes up no fragments. -/
theorem mem_combine (h : other ∈ combine store incoming) : other ∈ store ∨ other ∈ incoming := by
  -- Every store on the way is compared with the one at the start.
  refine combine_induction (P := fun s => ∀ other ∈ s, other ∈ store ∨ other ∈ incoming)
    (fun _ h => .inl h) ?_ other h
  intro s fragment hfragment ih other hother
  rcases mem_put hother with hother | rfl
  · exact ih other hother
  · exact .inr hfragment

/-- Fragments of other kinds leave a kind alone, unless they replace one of its fragments. -/
theorem ofKind_combine {kind : Kind} (hkind : kind ≠ .assumed)
    (hincoming : ∀ fragment ∈ incoming, fragment.kind ≠ kind)
    (hnew : ∀ fragment ∈ incoming, fragment.isAssumed = false →
      ∀ other ∈ ofKind kind store, other.reference ≠ fragment.reference) :
    ofKind kind (combine store incoming) = ofKind kind store := by
  refine combine_induction (P := fun s => ofKind kind s = ofKind kind store) rfl ?_
  intro s fragment hfragment ih
  have hnone : ofKind kind [fragment] = [] := by
    simpa [ofKind] using hincoming fragment hfragment
  rw [ofKind_put hkind (by rw [ih]; exact hnew fragment hfragment), hnone, List.append_nil, ih]

theorem Stored.combine (h : Stored store reference) (incoming : List Fragment) :
    Stored (Fragment.combine store incoming) reference :=
  combine_induction (P := (Stored · reference)) h fun _ fragment _ ih => ih.put fragment

theorem Declared.combine (h : Declared store reference) (incoming : List Fragment) :
    Declared (Fragment.combine store incoming) reference :=
  combine_induction (P := (Declared · reference)) h fun _ fragment _ ih => ih.put fragment

/-- A merged store holds one fragment for each reference. -/
theorem nodup_combine (h : (store.map Fragment.reference).Nodup) :
    ((combine store incoming).map Fragment.reference).Nodup :=
  combine_induction (P := fun s => (s.map Fragment.reference).Nodup) h fun _ _ _ ih => nodup_put ih

/-- Every incoming reference is stored. -/
theorem stored_combine (h : Stored incoming reference) : Stored (combine store incoming) reference := by
  induction incoming generalizing store with
  | nil => simp [Stored] at h
  | cons fragment incoming ih =>
    rw [combine_cons]
    rcases List.mem_cons.1 (h : reference ∈ fragment.reference :: _) with rfl | h
    · exact stored_put_self.combine incoming
    · exact ih h

/-- Every incoming concrete fragment makes its reference concrete. -/
theorem declared_combine (h : Declared incoming reference) :
    Declared (combine store incoming) reference := by
  induction incoming generalizing store with
  | nil =>
    obtain ⟨fragment, hfragment, -⟩ := h
    simp at hfragment
  | cons fragment incoming ih =>
    rw [combine_cons]
    obtain ⟨other, hmem, rfl, hconcrete⟩ := h
    rcases List.mem_cons.1 hmem with rfl | hmem
    · exact (declared_put_self hconcrete).combine incoming
    · exact ih ⟨other, hmem, rfl, hconcrete⟩

end Fragment

namespace FragmentSet

/-- A fragment of that reference is in the set. -/
def Stored (set : FragmentSet) (reference : String) : Prop :=
  Fragment.Stored set.fragments reference

/-- A concrete fragment of that reference is in the set. -/
def Declared (set : FragmentSet) (reference : String) : Prop :=
  Fragment.Declared set.fragments reference

variable {set other : FragmentSet} {fragment : Fragment} {reference : String}

theorem mem_assumedReferences :
    reference ∈ set.assumedReferences ↔ Fragment.assumed reference ∈ set.fragments :=
  Fragment.mem_assumedReferences

/-- A push adds at most the fragment itself. -/
theorem mem_push {added : Fragment} (h : fragment ∈ (set.push added).fragments) :
    fragment ∈ set.fragments ∨ fragment = added :=
  Fragment.mem_put h

/-- What is in a set after merging was in one of the two. -/
theorem mem_extend (h : fragment ∈ (set.extend other).fragments) :
    fragment ∈ set.fragments ∨ fragment ∈ other.fragments :=
  Fragment.mem_combine h

/-- A fragment with a reference that is new among those of its kind comes after them. -/
theorem ofKind_push {kind : Fragment.Kind} (hkind : kind ≠ .assumed)
    (hnew : fragment.isAssumed = false →
      ∀ other ∈ Fragment.ofKind kind set.fragments, other.reference ≠ fragment.reference) :
    Fragment.ofKind kind (set.push fragment).fragments =
      Fragment.ofKind kind set.fragments ++ Fragment.ofKind kind [fragment] :=
  Fragment.ofKind_put hkind hnew

/-- A push keeps one fragment for each reference. -/
theorem nodup_push (h : (set.fragments.map Fragment.reference).Nodup) (fragment : Fragment) :
    ((set.push fragment).fragments.map Fragment.reference).Nodup :=
  Fragment.nodup_put h

/-- Merging keeps one fragment for each reference, whatever is merged in. -/
theorem nodup_extend (h : (set.fragments.map Fragment.reference).Nodup) (other : FragmentSet) :
    ((set.extend other).fragments.map Fragment.reference).Nodup :=
  Fragment.nodup_combine h

theorem Stored.push (h : set.Stored reference) (fragment : Fragment) :
    (set.push fragment).Stored reference :=
  Fragment.Stored.put h fragment

theorem stored_push_self : (set.push fragment).Stored fragment.reference :=
  Fragment.stored_put_self

theorem Stored.extend (h : set.Stored reference) (other : FragmentSet) :
    (set.extend other).Stored reference :=
  Fragment.Stored.combine h other.fragments

theorem stored_extend (h : other.Stored reference) : (set.extend other).Stored reference :=
  Fragment.stored_combine h

/-- After merging just the references of the two sets are stored. -/
theorem stored_extend_iff :
    (set.extend other).Stored reference ↔ set.Stored reference ∨ other.Stored reference := by
  constructor
  · intro h
    obtain ⟨fragment, hfragment, rfl⟩ := List.mem_map.1 h
    exact (Fragment.mem_combine hfragment).imp List.mem_map_of_mem List.mem_map_of_mem
  · rintro (h | h)
    · exact h.extend other
    · exact stored_extend h

theorem Declared.push (h : set.Declared reference) (fragment : Fragment) :
    (set.push fragment).Declared reference :=
  Fragment.Declared.put h fragment

theorem declared_push_self (h : fragment.isAssumed = false) :
    (set.push fragment).Declared fragment.reference :=
  Fragment.declared_put_self h

theorem Declared.extend (h : set.Declared reference) (other : FragmentSet) :
    (set.extend other).Declared reference :=
  Fragment.Declared.combine h other.fragments

theorem declared_extend (h : other.Declared reference) : (set.extend other).Declared reference :=
  Fragment.declared_combine h

end FragmentSet

end Typewright
