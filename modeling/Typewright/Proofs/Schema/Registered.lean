import Typewright.Proofs.Fragment.Register
import Typewright.Proofs.Schema.Rules

/-!
# Schemas keep to a register

Typing a schema announces its references and declares its enums, nothing else, and the types mention
only what is announced or declared along with them (`Register.gives_typing`).
-/

namespace Typewright.Register

open Schema

variable {R : Register}

/-- The references inside a value may be announced, and their paths are registered. -/
def Covers (R : Register) (baseName : String) (value : Json) : Prop :=
  ∀ reference ∈ Pointer.references value,
    R.announced reference ∧ R.names reference (declarationPath baseName reference)

/-- The enum of that name is registered. -/
def TakesEnum (R : Register) (name : String) : Prop :=
  R.names (EnumDeclaration.referenceOf name) (EnumDeclaration.pathOf name) ∧
    R.declares (EnumDeclaration.referenceOf name) (EnumDeclaration.pathOf name)

/-- The enums that a run may declare are registered. -/
def TakesEnums (R : Register) : Prop :=
  ∀ wish n, R.TakesEnum (Naming.numbered (Naming.identifier wish) n)

theorem Covers.of_inside {baseName : String} {inner value : Json} (h : R.Covers baseName value)
    (hinside : inner.Inside value) : R.Covers baseName inner :=
  fun reference hreference => h reference (Pointer.references_subset_of_inside hinside hreference)

/-- A type that mentions just the path of the fragment that comes with it. -/
theorem typingRegistered_withFragment {fragment : Fragment} {path : List String}
    (hallowed : R.Allows fragment) (hmentions : fragment.mentions = [])
    (hnames : R.names fragment.reference path) :
    R.TypingRegistered ((Typing.ofType (.reference path)).withFragment fragment) := by
  refine ⟨registered_empty.push hallowed fun other hother => ?_, fun type htype other hother => ?_⟩
  · rw [hmentions] at hother
    exact absurd hother List.not_mem_nil
  · rw [List.mem_singleton.1 htype] at hother
    rw [List.mem_singleton.1 hother]
    exact provides_push_self hnames

/-- Being registered is kept by all rules for typings. -/
theorem typingRules (hR : R.TakesEnums) (final : EnumNames) (baseName : String) (limit : Nat) :
    TypingRules final baseName limit (R.Covers baseName) R.TypingRegistered where
  inner hcovers hinner := hcovers.of_inside hinner.inside
  plain h _ := by
    refine ⟨registered_empty, fun type htype path hpath => ?_⟩
    rw [h type htype] at hpath
    exact absurd hpath List.not_mem_nil
  degraded warning _ := (typingRegistered_ofType rfl).warn warning
  reference hcovers htarget := by
    obtain ⟨hannounced, hnames⟩ := hcovers _ (Pointer.mem_references_of_target? htarget)
    exact typingRegistered_withFragment hannounced rfl hnames
  enum wish n values := by
    obtain ⟨hnames, hdeclares⟩ := hR wish n
    exact fun _ => typingRegistered_withFragment hdeclares rfl hnames
  united h := h.united
  parts _ hassembles h := typingRegistered_of_parts h hassembles.exists_part

/-- Typing a schema keeps to a register that covers its references. -/
theorem gives_typing (hR : R.TakesEnums) (schema : Json) (context : Context) (parent : Option Json)
    (hcovers : R.Covers context.baseName schema) :
    ((ofJson schema).typing context parent).Gives R.TypingRegistered :=
  Run.gives_of_givesWithin fun final =>
    TypingRules.givesWithin_typing schema context parent (typingRules hR final _ _) hcovers

/-- All typings are registered. -/
def AllRegistered (R : Register) (typings : List Typing) : Prop :=
  ∀ typing ∈ typings, R.TypingRegistered typing

end Typewright.Register
