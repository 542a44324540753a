import Mathlib.Data.List.Forall2
import Typewright.Proofs.Run
import Typewright.Proofs.Schema.EnumNames
import Typewright.Proofs.TypeExpr.Admits

/-!
# Runs that claim enum names

A run only adds to the claimed names, and what it gives may mention the names that are claimed by
its end.  `Run.Ensures G run P` says both: the names grow, and whatever the run gives satisfies `P`
once `G` gives every claimed enum its values.
-/

namespace Typewright

/-- The environment gives every claimed enum its values. -/
def EnumNames.Interpreted (G : List String → Json → Prop) (names : EnumNames) : Prop :=
  ∀ name values, names.lookup name = some values →
    ∀ text ∈ values, G (EnumDeclaration.pathOf name) (.string text)

theorem EnumNames.Interpreted.of_extends {G : List String → Json → Prop} {names names' : EnumNames}
    (h : names'.Interpreted G) (hextends : names.Extends names') : names.Interpreted G :=
  fun name values hlookup => h name values (hextends name values hlookup)

namespace Run

variable {α β : Type} {G : List String → Json → Prop}

/-- The run only adds names, and what it gives satisfies `P` where its names are interpreted. -/
def Ensures (G : List String → Json → Prop) (run : Run α) (P : α → Prop) : Prop :=
  ∀ names value names', run.Yields names value names' →
    names.Extends names' ∧ (names'.Interpreted G → P value)

theorem ensures_pure {value : α} {P : α → Prop} (h : P value) : Ensures G (pure value) P := by
  intro names value' names' hyields
  obtain ⟨rfl, rfl⟩ := yields_pure_iff.1 hyields
  exact ⟨.refl names, fun _ => h⟩

theorem ensures_throw {failure : Failure} {P : α → Prop} : Ensures G (throw failure) P :=
  fun _ _ _ hyields => absurd hyields not_yields_throw

/-- What the second step gives may rest on what the first step ensures. -/
theorem ensures_bind {run : Run α} {next : α → Run β} {P : α → Prop} {Q : β → Prop}
    (hrun : Ensures G run P) (hnext : ∀ first, Ensures G (next first) fun second => P first → Q second) :
    Ensures G (run >>= next) Q := by
  intro names value names'' hyields
  obtain ⟨first, names', hfirst, hsecond⟩ := yields_bind_iff.1 hyields
  obtain ⟨hextends, hP⟩ := hrun _ _ _ hfirst
  obtain ⟨hextends', hQ⟩ := hnext first _ _ _ hsecond
  exact ⟨hextends.trans hextends', fun hG => hQ hG (hP (hG.of_extends hextends'))⟩

theorem Ensures.mono {run : Run α} {P Q : α → Prop} (h : Ensures G run P)
    (hPQ : ∀ value, P value → Q value) : Ensures G run Q := by
  intro names value names' hyields
  obtain ⟨hextends, hP⟩ := h _ _ _ hyields
  exact ⟨hextends, fun hG => hPQ _ (hP hG)⟩

theorem ensures_map {run : Run α} {f : α → β} {P : α → Prop} {Q : β → Prop} (h : Ensures G run P)
    (hQ : ∀ value, P value → Q (f value)) : Ensures G (f <$> run) Q := by
  rw [map_eq_pure_bind]
  exact ensures_bind h fun first => ensures_pure (hQ first)

/-- The results stand beside the elements that they came of. -/
theorem ensures_mapM {xs : List α} {f : α → Run β} {P : α → β → Prop}
    (h : ∀ x ∈ xs, Ensures G (f x) (P x)) : Ensures G (xs.mapM f) (List.Forall₂ P xs) := by
  induction xs with
  | nil =>
    rw [List.mapM_nil]
    exact ensures_pure .nil
  | cons x xs ih =>
    rw [List.mapM_cons]
    refine ensures_bind (h x List.mem_cons_self) fun y => ?_
    refine ensures_bind (ih fun x hx => h x (List.mem_cons_of_mem _ hx)) fun ys => ?_
    exact ensures_pure fun hrest hfirst => .cons hfirst hrest

end Run

/-! ### Related lists -/

section Related

variable {α β : Type} {R : α → β → Prop} {xs : List α} {ys : List β}

theorem exists_mem_right (h : List.Forall₂ R xs ys) {x : α} (hx : x ∈ xs) : ∃ y ∈ ys, R x y := by
  induction h with
  | nil => simp at hx
  | @cons x' y' xs ys hR _ ih =>
    rcases List.mem_cons.1 hx with rfl | hx
    · exact ⟨y', List.mem_cons_self, hR⟩
    · obtain ⟨y, hy, hxy⟩ := ih hx
      exact ⟨y, List.mem_cons_of_mem _ hy, hxy⟩

theorem exists_mem_left (h : List.Forall₂ R xs ys) {y : β} (hy : y ∈ ys) : ∃ x ∈ xs, R x y :=
  exists_mem_right h.flip hy

end Related

/-! ### Typings -/

/-- The value belongs to one of the types. -/
def Typing.Covers (G : List String → Json → Prop) (typing : Typing) (value : Json) : Prop :=
  ∃ type ∈ typing.types, TypeExpr.Admits G type value

namespace Typing

variable {G : List String → Json → Prop}

/-- A typing with one type covers what that type admits. -/
theorem covers_of_types_eq {typing : Typing} {type : TypeExpr} {value : Json}
    (htypes : typing.types = [type]) (h : TypeExpr.Admits G type value) : typing.Covers G value :=
  ⟨type, by rw [htypes]; exact List.mem_singleton_self type, h⟩

/-- The union of the types of a typing admits what the typing covers. -/
theorem admits_unionType_iff {typing : Typing} {value : Json} :
    TypeExpr.Admits G typing.unionType value ↔ typing.Covers G value :=
  TypeExpr.admits_unionOf_iff

/-- Uniting the types of a typing changes nothing in what it covers. -/
theorem covers_united_iff {typing : Typing} {value : Json} :
    typing.united.Covers G value ↔ typing.Covers G value := by
  have hsingle : typing.united.Covers G value ↔ TypeExpr.Admits G typing.unionType value := by
    simp [Covers, united]
  exact hsingle.trans admits_unionType_iff

end Typing

end Typewright
