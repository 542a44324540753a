import Typewright.Proofs.Api.Visits

/-!
# What a walk makes is normal

All that is declared is in normal form (`normalDeclarationRules`), and so is all that visits make, since
operations stand below the space of the walk, an identifier, under identifiers of their own
(`Walk.normalVisitRules`).  Hence the fragments are normal at the start of a document of either kind
(`Walk.givesNormal_documentFragments`, `Walk.givesNormal_rootFragments`), and those of every expansion
are (`Walk.givesNormal_expand`).
-/

namespace Typewright.Api

open FragmentSet (Normal normal_empty)

open Run (GivesWithin givesWithin_bind_liftExcept)

/-- Declarations are normal where operations stand under paths of identifiers. -/
theorem normalDeclarationRules (final : EnumNames) :
    DeclarationRules final (fun _ => True) True Normal where
  empty := normal_empty
  announce _ h := h.push trivial
  push h _ hfragment := h.push (hfragment trivial)
  extend h hother := h.extend hother
  filtered _ _ h := h
  schema schema context := (Schema.givesNormal_unitedTyping final schema context none).mono
    fun _ htyping => htyping.2

namespace Walk

variable {final : EnumNames} {walk : Walk}

/-- An operation stands under a path of identifiers. -/
theorem isPath_operationSite (hspace : Naming.identifier walk.space = walk.space) (id : String) :
    Naming.IsPath (walk.operationSite id).path := by
  have hspacePath : Naming.IsPath [walk.space] :=
    ⟨List.cons_ne_nil _ _, List.forall_mem_singleton.2 hspace⟩
  exact Naming.isPath_append hspacePath (Naming.identifier_identifier id)

/-- Visits make normal fragments. -/
theorem normalVisitRules (final : EnumNames) (hspace : Naming.identifier walk.space = walk.space) :
    VisitRules final walk (fun _ => Normal) Normal where
  plain hnone fragment hfragment := by
    rw [hnone] at hfragment
    exact absurd hfragment List.not_mem_nil
  announce _ h := h.push trivial
  extend h hother := h.extend hother
  adopt h _ hother := h.extend hother
  input _ := (normalDeclarationRules final).givesWithin_operationInput (fun _ _ _ => trivial) trivial
    fun _ => isPath_operationSite hspace _
  output _ := (normalDeclarationRules final).givesWithin_operationOutput (fun _ _ _ => trivial) trivial
    fun _ => isPath_operationSite hspace _

theorem normal_declaredSchemas (document : Json) (kind : DocumentKind) :
    (declaredSchemas document kind).Normal := by
  intro fragment hfragment
  obtain ⟨reference, -, rfl⟩ :=
    List.mem_map.1 ((Fragment.mem_combine hfragment).resolve_left List.not_mem_nil)
  trivial

/-- A document that describes an interface starts from normal fragments. -/
theorem givesNormal_documentFragments (hspace : Naming.identifier walk.space = walk.space) :
    GivesWithin final walk.documentFragments Normal :=
  (normalVisitRules final hspace).givesWithin_documentFragments (normal_declaredSchemas _ _)

/-- A schema document starts from normal fragments. -/
theorem givesNormal_rootFragments (walk : Walk) : GivesWithin final walk.rootFragments Normal :=
  (normalDeclarationRules final).givesWithin_rootFragments trivial (normal_declaredSchemas _ _)

/-- What comes of an expansion is normal. -/
theorem givesNormal_expand (hspace : Naming.identifier walk.space = walk.space) (reference : String) :
    GivesWithin final (walk.expand reference) Normal := by
  have hrules := normalDeclarationRules final
  have hvisits := normalVisitRules final hspace
  unfold expand
  refine givesWithin_bind_liftExcept fun value _ => ?_
  simp only
  split
  · exact hrules.givesWithin_requestBodyDeclaration trivial
  · exact hrules.givesWithin_parameterDeclaration trivial
  · exact hrules.givesWithin_responseDeclaration ⟨trivial, trivial, trivial, fun _ => trivial⟩
  · exact hrules.givesWithin_headerDeclaration trivial
  · exact hvisits.givesWithin_visitCallback _ _ fun id hid => from_callback hid
  · exact hvisits.givesWithin_visitPathItem _ _ _ fun id hid => from_pathItem hid
  · exact hrules.givesWithin_schemaDeclaration trivial

end Walk

end Typewright.Api
