import Typewright.Proofs.Pointer.Placed
import Typewright.Proofs.Schema.Ends

/-!
# Where the diagnostics of a schema point

Typing a schema that stands at its location raises only warnings and failures that point at what they
are about (`Schema.ends_typing`): the schemas below it stand at their locations too, since a location
grows in step with the traversal, and the rest is how typings end.
-/

namespace Typewright

open Pointer (Placed)

/-- All warnings of the set point at what they are about. -/
def FragmentSet.PointsInto (root : Json) (set : FragmentSet) : Prop :=
  ∀ warning ∈ set.warnings, warning.PointsInto root

namespace FragmentSet

variable {root : Json} {set other : FragmentSet}

theorem pointsInto_empty : ({} : FragmentSet).PointsInto root :=
  fun _ h => absurd h List.not_mem_nil

theorem PointsInto.push (h : set.PointsInto root) (fragment : Fragment) :
    (set.push fragment).PointsInto root := h

/-- Merging raises no warnings beyond those of the two sets. -/
theorem PointsInto.extend (h : set.PointsInto root) (hother : other.PointsInto root) :
    (set.extend other).PointsInto root := by
  intro warning hwarning
  rw [warnings_extend, List.mem_append] at hwarning
  exact hwarning.elim (h warning) (hother warning)

theorem PointsInto.warn {warning : Warning} (h : set.PointsInto root)
    (hwarning : warning.PointsInto root) : (set.warn warning).PointsInto root :=
  List.forall_mem_append.2 ⟨h, List.forall_mem_singleton.2 hwarning⟩

end FragmentSet

namespace Schema

variable {root : Json}

theorem pointsInto_emittedOf {typings : List Typing}
    (h : ∀ typing ∈ typings, typing.emitted.PointsInto root) :
    (emittedOf typings).PointsInto root := by
  intro warning hwarning
  rw [warnings_emittedOf, List.mem_flatMap] at hwarning
  obtain ⟨typing, htyping, hwarning⟩ := hwarning
  exact h typing htyping warning hwarning

/-- Pointing into a document is a property of warnings, so it follows the rules for these. -/
theorem pointsIntoRules : WarningRules (FragmentSet.PointsInto root) where
  silent h warning hwarning := absurd (h ▸ hwarning : warning ∈ []) List.not_mem_nil
  parts := pointsInto_emittedOf

/-- The schemas below one that stands at its location stand at theirs. -/
theorem Below.placed {inner value : Json} {innerLocation location : String}
    (h : Below (inner, innerLocation) (value, location)) (hplaced : Placed root value location) :
    Placed root inner innerLocation := by
  cases h with
  | listed _ hitems hinner => exact (hplaced.items hitems).item hinner
  | single _ hinner => exact hplaced.field (field?_of_unlisted? hinner)
  | named _ hentries hinner => exact (hplaced.entries hentries).entry hinner

/-- A warning is about a schema, and its location is that of the schema. -/
theorem Warns.pointsInto {value : Json} {location : String} {warning : Warning}
    (h : Warns location value warning) (hplaced : Placed root value location) :
    warning.PointsInto root := by
  cases h with
  | uncovered huncovered => exact ⟨value, hplaced.resolve_eq, huncovered⟩
  | unlistedEnum henum => exact ⟨value, hplaced.resolve_eq, henum⟩

/-- A failure of a schema carries the location of the schema. -/
theorem Raises.reference?_eq {location : String} {parent : Option Json} {value : Json}
    {failure : Failure} (h : Raises location parent value failure) :
    failure.reference? = some location := by
  cases h <;> rfl

/-- Typing a schema that stands at its location raises only warnings and failures that point at what
    they are about. -/
theorem ends_typing {value : Json} {context : Context} (parent : Option Json)
    (hplaced : Placed root value context.location) :
    EndsTyping (FragmentSet.PointsInto root) (Failure.PointsInto root)
      ((ofJson value).typing context parent) := by
  induction value using Json.inside_induction generalizing context parent with
  | _ value ih =>
    have hends : EndsTyping (FragmentSet.PointsInto root) (fun failure => failure.PointsInto root ∨
        Raises context.location parent value failure) ((ofJson value).typing context parent) := by
      refine ends_typing_of_below pointsIntoRules (fun inner context' parent' hbelow => ?_)
        (fun warning hwarns => FragmentSet.pointsInto_empty.warn (hwarns.pointsInto hplaced))
        fun failure hraises => .inr hraises
      exact (ih inner hbelow.subschema.inside parent' (hbelow.placed hplaced)).mono
        (fun _ htyping => htyping) fun _ hfailure => .inl hfailure
    refine ⟨hends.gives, fun hfails => ?_⟩
    -- A failure of an inner schema points there by induction; its own points to the schema itself.
    rcases hends.fails hfails with hpoints | hraises
    · exact hpoints
    · intro reference hreference
      obtain rfl := Option.some.inj (hraises.reference?_eq.symm.trans hreference)
      exact ⟨value, hplaced.resolve_eq, .schema rfl hfails hraises⟩

theorem ends_unitedTyping {value : Json} {context : Context} (parent : Option Json)
    (hplaced : Placed root value context.location) :
    EndsTyping (FragmentSet.PointsInto root) (Failure.PointsInto root)
      ((ofJson value).unitedTyping context parent) :=
  (ends_typing parent hplaced).united

end Schema

end Typewright
