import Typewright.Proofs.Fragment.Normal
import Typewright.Proofs.Schema.Rules

/-!
# Typings in normal form

The types of a schema are normal, and so is what comes with them (`Schema.givesNormal_unitedTyping`):
every type is put together out of normal ones, references lead to paths of identifiers
(`isPath_declarationPath`), and enums are declared under numbered identifiers.
-/

namespace Typewright

open Naming (IsPath)

open FragmentSet (normal_empty)

/-- A reference is declared under a path of identifiers. -/
theorem isPath_declarationPath (baseName reference : String) :
    IsPath (declarationPath baseName reference) := by
  unfold declarationPath
  split
  · exact ⟨List.cons_ne_nil _ _, List.forall_mem_singleton.2 (Naming.identifier_identifier baseName)⟩
  · next segments hne =>
    refine ⟨fun hnil => hne (List.map_eq_nil_iff.1 hnil), ?_⟩
    exact List.forall_mem_map.2 fun segment _ => Naming.identifier_identifier segment

theorem EnumDeclaration.isPath_pathOf (wish : String) (n : Nat) :
    IsPath (pathOf (Naming.numbered (Naming.identifier wish) n)) := by
  refine ⟨List.cons_ne_nil _ _, List.forall_mem_cons.2 ⟨by decide, ?_⟩⟩
  exact List.forall_mem_singleton.2 (Naming.identifier_numbered wish n)

namespace Schema

/-- The types are normal, and what comes with them has the property. -/
def NormalWith (P : FragmentSet → Prop) (typing : Typing) : Prop :=
  typing.Normal ∧ P typing.emitted

theorem normal_emittedOf {typings : List Typing} (h : ∀ typing ∈ typings, typing.emitted.Normal) :
    (emittedOf typings).Normal :=
  Register.foldl_extend_induction (P := FragmentSet.Normal) normal_empty
    fun _ typing htyping hset => hset.extend (h typing htyping)

theorem normal_ofType {type : TypeExpr} (h : type.Normal) : (Typing.ofType type).Normal :=
  List.forall_mem_singleton.2 h

/-- All rules for typings keep them normal. -/
theorem normalRules (final : EnumNames) (baseName : String) (limit : Nat) :
    TypingRules final baseName limit (fun _ => True) (NormalWith FragmentSet.Normal) where
  inner _ _ := trivial
  plain _ h := ⟨h, normal_empty⟩
  degraded _ _ := ⟨normal_ofType TypeExpr.normal_unknown, normal_empty⟩
  reference {_ reference} _ _ :=
    ⟨normal_ofType (TypeExpr.normal_reference_iff.2 (isPath_declarationPath baseName reference)),
      normal_empty.push trivial⟩
  enum wish n _ _ :=
    ⟨normal_ofType (TypeExpr.normal_reference_iff.2 (EnumDeclaration.isPath_pathOf wish n)),
      normal_empty.push trivial⟩
  united h := ⟨h.1.united, h.2⟩
  parts _ hassembles h :=
    ⟨hassembles.normal fun typing htyping => (h typing htyping).1,
      normal_emittedOf fun typing htyping => (h typing htyping).2⟩

/-- The type of a schema is normal, and so is what comes with it. -/
theorem givesNormal_unitedTyping (final : EnumNames) (schema : Json) (context : Context)
    (parent : Option Json) :
    Run.GivesWithin final ((ofJson schema).unitedTyping context parent)
      (NormalWith FragmentSet.Normal) :=
  Run.givesWithin_map
    (TypingRules.givesWithin_typing schema context parent (normalRules final _ _) trivial)
    fun _ h => ⟨h.1.united, h.2⟩

end Schema

end Typewright
