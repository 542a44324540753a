import Typewright.Proofs.Fragment.Store
import Typewright.Proofs.Schema.EnumNames
import Typewright.Proofs.Text.Distinct

/-!
# What a set of fragments owns

The concrete fragments of a set stand under references of its own or declare enums
(`FragmentSet.Owned`).  Storing fragments loses a concrete one only to another of its reference
(`Fragment.mem_combine_of_mem`), and an enum is declared alike wherever it is declared
(`Fragment.IsEnum.eq_of_reference_eq`), so sets that own different references can be put together
without a loss.
-/

namespace Typewright

namespace Fragment

variable {store incoming : List Fragment} {fragment other : Fragment}

/-! ### What is kept -/

/-- A fragment stays if no other concrete fragment of its reference comes. -/
theorem mem_combine_of_mem (h : fragment ∈ store)
    (hkeep : ∀ other ∈ incoming, other.isAssumed = false → other.reference = fragment.reference →
      other = fragment) :
    fragment ∈ combine store incoming := by
  refine combine_induction (P := (fragment ∈ ·)) h fun store other hother hmem => ?_
  cases hassumed : other.isAssumed with
  | true => exact mem_put_of_mem hmem (.inl hassumed)
  | false =>
    by_cases href : other.reference = fragment.reference
    · rw [← hkeep other hother hassumed href]
      exact mem_put_self hassumed
    · exact mem_put_of_mem hmem (.inr (Ne.symm href))

/-- A concrete fragment that comes with no other one of its reference is stored. -/
theorem mem_combine_of_incoming (hnodup : (incoming.map Fragment.reference).Nodup)
    (h : fragment ∈ incoming) (hconcrete : fragment.isAssumed = false) :
    fragment ∈ combine store incoming := by
  induction incoming generalizing store with
  | nil => exact absurd h List.not_mem_nil
  | cons first rest ih =>
    obtain ⟨hfirst, hrest⟩ := List.nodup_cons.1 hnodup
    rw [combine_cons]
    rcases List.mem_cons.1 h with rfl | h
    · refine mem_combine_of_mem (mem_put_self hconcrete) fun other hother _ href => ?_
      exact absurd (href ▸ List.mem_map_of_mem hother) hfirst
    · exact ih hrest h

/-! ### Enums -/

/-- The fragment declares an enum, under a name that stands for its values in the end. -/
def IsEnum (final : EnumNames) (fragment : Fragment) : Prop :=
  ∃ wish n values, final.lookup (Naming.numbered (Naming.identifier wish) n) = some values ∧
    fragment = (EnumDeclaration.ofValues (Naming.numbered (Naming.identifier wish) n) values).toFragment

/-- An enum has its reference below that of all enums. -/
theorem IsEnum.split_eq {final : EnumNames} (h : fragment.IsEnum final) :
    ∃ name, Pointer.split fragment.reference = ["enums", name] := by
  obtain ⟨wish, n, values, -, rfl⟩ := h
  exact ⟨_, EnumDeclaration.split_referenceOf wish n⟩

/-- Enums of one reference have one name, hence the same values. -/
theorem IsEnum.eq_of_reference_eq {final : EnumNames} (h : fragment.IsEnum final)
    (hother : other.IsEnum final) (href : fragment.reference = other.reference) : fragment = other := by
  obtain ⟨wish, n, values, hvalues, rfl⟩ := h
  obtain ⟨wish', n', values', hvalues', rfl⟩ := hother
  have hsplit := congrArg Pointer.split href
  -- The reference shows the name, and a name stands for one list of values.
  have hname : Naming.numbered (Naming.identifier wish) n =
      Naming.numbered (Naming.identifier wish') n' := by
    have hsegments : ["enums", Naming.numbered (Naming.identifier wish) n] =
        ["enums", Naming.numbered (Naming.identifier wish') n'] :=
      (EnumDeclaration.split_referenceOf wish n).symm.trans
        (hsplit.trans (EnumDeclaration.split_referenceOf wish' n'))
    simpa using hsegments
  rw [hname] at hvalues ⊢
  rw [Option.some.inj (hvalues.symm.trans hvalues')]

end Fragment

namespace FragmentSet

/-- References are distinct, and the concrete fragments stand under references of the set's own or
    declare enums. -/
structure Owned (final : EnumNames) (own : String → Prop) (set : FragmentSet) : Prop where
  nodup : (set.fragments.map Fragment.reference).Nodup
  concrete : ∀ fragment ∈ set.fragments, fragment.isAssumed = false →
    own fragment.reference ∨ fragment.IsEnum final

variable {final : EnumNames} {own own' : String → Prop} {set other : FragmentSet}
  {fragment : Fragment}

theorem owned_empty {warnings : List Warning} {operations : List String} :
    Owned final own { warnings, operations } :=
  ⟨List.nodup_nil, fun _ h => absurd h List.not_mem_nil⟩

/-- Who owns more owns what there was. -/
theorem Owned.mono (h : set.Owned final own) (hown : ∀ reference, own reference → own' reference) :
    set.Owned final own' :=
  ⟨h.nodup, fun fragment hfragment hconcrete =>
    (h.concrete fragment hfragment hconcrete).imp_left (hown _)⟩

/-- A concrete fragment may come in if it is owned or is an enum; an assumed one always. -/
theorem Owned.put (h : set.Owned final own)
    (hfragment : fragment.isAssumed = false → own fragment.reference ∨ fragment.IsEnum final) :
    (set.push fragment).Owned final own := by
  refine ⟨nodup_push h.nodup fragment, fun other hother hconcrete => ?_⟩
  rcases Fragment.mem_put hother with hother | rfl
  · exact h.concrete other hother hconcrete
  · exact hfragment hconcrete

theorem Owned.announce (h : set.Owned final own) (reference : String) :
    (set.push (.assumed reference)).Owned final own :=
  h.put fun hconcrete => absurd hconcrete (by simp [Fragment.isAssumed])

theorem Owned.push (h : set.Owned final own) (hown : own fragment.reference) :
    (set.push fragment).Owned final own :=
  h.put fun _ => .inl hown

/-- What two sets own they own together. -/
theorem Owned.extend (h : set.Owned final own) (hother : other.Owned final own) :
    (set.extend other).Owned final own := by
  refine ⟨nodup_extend h.nodup other, fun fragment hfragment hconcrete => ?_⟩
  rcases Fragment.mem_combine hfragment with hmem | hmem
  · exact h.concrete fragment hmem hconcrete
  · exact hother.concrete fragment hmem hconcrete

theorem Owned.warn (h : set.Owned final own) (warning : Warning) : (set.warn warning).Owned final own :=
  ⟨h.nodup, h.concrete⟩

theorem mem_operations_extend {id : String} :
    id ∈ (set.extend other).operations ↔ id ∈ set.operations ∨ id ∈ other.operations := by
  refine ⟨Text.mem_or_mem_of_mem_insertAllNew, ?_⟩
  rintro (h | h)
  · exact Text.mem_insertAllNew_of_mem h
  · exact Text.mem_insertAllNew_right h

end FragmentSet

end Typewright
