import Typewright.Proofs.Json.Inside
import Typewright.Proofs.Naming.Identifier
import Typewright.Proofs.Naming.Numbered
import Typewright.Proofs.Pointer.Segments
import Typewright.Schema.Context

/-!
# Claimed enum names

A claim searches the numbered names of a base for one that is free or stands for the values already,
and the search ends (`EnumNames.exists_searchEndsAt`).  A name that was claimed for a list of values
stands for it from then on: the names before a run and after it are related by `EnumNames.Extends`, and
a claim gives a name that stands for the values (`EnumNames.lookup_claim`).  An enum is declared where a
reference to it would be (`EnumDeclaration.declarationPath_referenceOf`).
-/

namespace Typewright.EnumNames

/-- Every name that stands for values in the first also does in the second. -/
def Extends (names names' : EnumNames) : Prop :=
  ∀ name values, names.lookup name = some values → names'.lookup name = some values

namespace Extends

theorem refl (names : EnumNames) : Extends names names := fun _ _ h => h

theorem trans {names names' names'' : EnumNames} (h₁ : Extends names names')
    (h₂ : Extends names' names'') : Extends names names'' := fun name values h =>
  h₂ name values (h₁ name values h)

end Extends

theorem lookup_eq_none {names : EnumNames} {name : String} (h : name ∉ names.map Prod.fst) :
    names.lookup name = none := by
  cases hlookup : names.lookup name with
  | none => rfl
  | some values => exact absurd (List.mem_map_of_mem (Json.mem_of_lookup hlookup)) h

theorem fst_claim (names : EnumNames) (base : String) (values : List String) :
    (names.claim base values).1 =
      Naming.firstNumbered base (names.length + 1) (names.accepts values) := by
  unfold claim
  simp only
  split <;> rfl

/-- The search for a name ends, at the latest after as many steps as there are names, and the name that
    it ends at is claimed. -/
theorem exists_searchEndsAt (names : EnumNames) (base : String) (values : List String) :
    ∃ n ≤ names.length, (names.claim base values).1 = Naming.numbered base n ∧
      Naming.SearchEndsAt (names.accepts values) base n := by
  have haccepts : ∀ name ∉ names.map Prod.fst, names.accepts values name = true := fun name hname => by
    rw [accepts, lookup_eq_none hname]
  obtain ⟨n, hn, hfirst, hends⟩ := Naming.exists_firstNumbered_first haccepts base
  rw [List.length_map] at hn hfirst
  exact ⟨n, hn, (fst_claim names base values).trans hfirst, hends⟩

/-- The name that is claimed is free, or stands for these values already. -/
theorem accepts_claim (names : EnumNames) (base : String) (values : List String) :
    names.accepts values (names.claim base values).1 = true := by
  obtain ⟨n, -, hname, hends⟩ := exists_searchEndsAt names base values
  rw [hname]
  exact hends.found

theorem claim_cases (names : EnumNames) (base : String) (values : List String) :
    (names.lookup (names.claim base values).1 = some values ∧ (names.claim base values).2 = names) ∨
      (names.lookup (names.claim base values).1 = none ∧
        (names.claim base values).2 = ((names.claim base values).1, values) :: names) := by
  have haccepts := accepts_claim names base values
  unfold claim at haccepts ⊢
  simp only at haccepts ⊢
  split
  · next claimed hclaimed =>
    left
    simp only [hclaimed, accepts, beq_iff_eq] at haccepts
    exact ⟨by rw [hclaimed, haccepts], rfl⟩
  · next hnone => exact .inr ⟨hnone, rfl⟩

/-- A claimed name stands for its values. -/
theorem lookup_claim (names : EnumNames) (base : String) (values : List String) :
    (names.claim base values).2.lookup (names.claim base values).1 = some values := by
  rcases claim_cases names base values with ⟨hlookup, hnames⟩ | ⟨-, hnames⟩
  · rw [hnames, hlookup]
  · rw [hnames, List.lookup_cons_self]

theorem extends_claim (names : EnumNames) (base : String) (values : List String) :
    Extends names (names.claim base values).2 := by
  intro name claimed h
  rcases claim_cases names base values with ⟨-, hnames⟩ | ⟨hnone, hnames⟩
  · rw [hnames, h]
  · -- A name that stood for values is not the new one, which stood for none.
    rw [hnames, Json.lookup_cons_eq, if_neg, h]
    rintro rfl
    rw [hnone] at h
    exact absurd h (by simp)

end Typewright.EnumNames

namespace Typewright.EnumDeclaration

/-- The segments of the reference of an enum that a run may declare. -/
theorem split_referenceOf (wish : String) (n : Nat) :
    Pointer.split (referenceOf (Naming.numbered (Naming.identifier wish) n)) =
      ["enums", Naming.numbered (Naming.identifier wish) n] := by
  have hname : Naming.numbered (Naming.identifier wish) n ≠ "" := by
    rw [← Naming.identifier_numbered]
    exact Naming.identifier_ne_empty _
  exact Pointer.split_join (by simpa using hname)

theorem declarationPath_referenceOf (baseName wish : String) (n : Nat) :
    declarationPath baseName (referenceOf (Naming.numbered (Naming.identifier wish) n)) =
      pathOf (Naming.numbered (Naming.identifier wish) n) := by
  have hname : Naming.identifier (Naming.numbered (Naming.identifier wish) n) =
      Naming.numbered (Naming.identifier wish) n := by
    rw [← Naming.identifier_numbered, Naming.identifier_identifier]
  rw [declarationPath, split_referenceOf]
  change [Naming.identifier "enums", Naming.identifier (Naming.numbered (Naming.identifier wish) n)] = _
  rw [hname]
  rfl

end Typewright.EnumDeclaration
