import Typewright.Proofs.Fragment.Owned
import Typewright.Proofs.Fragment.Register
import Typewright.Proofs.Schema.Rules

/-!
# What typings own

The concrete fragments that come with the types of a schema declare enums
(`Schema.givesWithin_unitedTyping`).
-/

namespace Typewright

open FragmentSet (owned_empty)

open Run (GivesWithin givesWithin_map)

/-- The concrete fragments that come with the types declare enums. -/
def Typing.BringsEnums (final : EnumNames) (typing : Typing) : Prop :=
  typing.emitted.Owned final fun _ => False

namespace Schema

variable {final : EnumNames}

theorem owned_emittedOf {typings : List Typing} (h : ∀ typing ∈ typings, typing.BringsEnums final) :
    (emittedOf typings).Owned final fun _ => False :=
  Register.foldl_extend_induction (P := fun set => set.Owned final fun _ => False) owned_empty
    fun _ typing htyping hset => hset.extend (h typing htyping)

/-- All rules for typings bring enums only. -/
theorem enumRules (final : EnumNames) (baseName : String) (limit : Nat) :
    TypingRules final baseName limit (fun _ => True) (Typing.BringsEnums final) where
  inner _ _ := trivial
  plain _ _ := owned_empty
  degraded _ _ := owned_empty
  reference _ _ := owned_empty.announce _
  enum wish n values hlookup := owned_empty.put fun _ => .inr ⟨wish, n, values, hlookup, rfl⟩
  united h := h
  parts _ _ h := owned_emittedOf h

theorem givesWithin_typing (schema : Json) (context : Context) (parent : Option Json) :
    GivesWithin final ((ofJson schema).typing context parent) (Typing.BringsEnums final) :=
  TypingRules.givesWithin_typing schema context parent (enumRules final _ _) trivial

theorem givesWithin_unitedTyping (schema : Json) (context : Context) (parent : Option Json) :
    GivesWithin final ((ofJson schema).unitedTyping context parent) (Typing.BringsEnums final) :=
  givesWithin_map (givesWithin_typing schema context parent) fun _ htyping => htyping

end Schema

end Typewright
