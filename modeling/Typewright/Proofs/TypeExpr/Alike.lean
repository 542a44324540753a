import Mathlib.Data.List.Forall2
import Typewright.Proofs.TypeExpr.Admits

/-!
# Types with the same values

`TypeExpr.Alike G a b` says that the types `a` and `b` have the same values.  Every way to build a type
keeps this: types built alike from parts that are alike are alike.
-/

namespace Typewright.TypeExpr

variable {G : List String → Json → Prop}

/-- The types have the same values. -/
def Alike (G : List String → Json → Prop) (a b : TypeExpr) : Prop :=
  ∀ value, Admits G a value ↔ Admits G b value

theorem Alike.refl (a : TypeExpr) : Alike G a a := fun _ => Iff.rfl

/-! ### Members -/

/-- Lists that are alike member by member admit the same values by some member. -/
theorem exists_admits_iff_of_alike {as bs : List TypeExpr} (h : List.Forall₂ (Alike G) as bs)
    (value : Json) : (∃ a ∈ as, Admits G a value) ↔ ∃ b ∈ bs, Admits G b value := by
  induction h with
  | nil => exact Iff.rfl
  | cons hab _ ih =>
    rw [List.exists_mem_cons_iff, List.exists_mem_cons_iff, hab value, ih]

/-- Lists that are alike member by member admit the same values by all members. -/
theorem forall_admits_iff_of_alike {as bs : List TypeExpr} (h : List.Forall₂ (Alike G) as bs)
    (value : Json) : (∀ a ∈ as, Admits G a value) ↔ ∀ b ∈ bs, Admits G b value := by
  induction h with
  | nil => exact Iff.rfl
  | cons hab _ ih => rw [List.forall_mem_cons, List.forall_mem_cons, hab value, ih]

/-- Flattening and dropping repetitions do not change what a union admits, so it depends on its
    parts only up to likeness. -/
theorem alike_unionOf {as bs : List TypeExpr} (h : List.Forall₂ (Alike G) as bs) :
    Alike G (unionOf as) (unionOf bs) := by
  intro value
  rw [admits_unionOf_iff, admits_unionOf_iff]
  exact exists_admits_iff_of_alike h value

/-- What an intersection admits depends on its parts only up to likeness. -/
theorem alike_intersectionOf {as bs : List TypeExpr} (h : List.Forall₂ (Alike G) as bs) :
    Alike G (intersectionOf as) (intersectionOf bs) := by
  intro value
  rw [admits_intersectionOf_iff, admits_intersectionOf_iff]
  exact forall_admits_iff_of_alike h value

/-! ### Arrays and tuples -/

theorem alike_array {a b : TypeExpr} (h : Alike G a b) : Alike G (array a) (array b) := by
  intro value
  rw [Admits, Admits]
  simp only [h _]

/-- Elements are admitted place by place, so alike lists admit the same values. -/
theorem admitsEach_iff_of_alike {as bs : List TypeExpr} (h : List.Forall₂ (Alike G) as bs)
    (values : List Json) : AdmitsEach G as values ↔ AdmitsEach G bs values := by
  induction h generalizing values with
  | nil => exact Iff.rfl
  | cons hab _ ih =>
    cases values with
    | nil => simp only [AdmitsEach]
    | cons value values => rw [AdmitsEach, AdmitsEach, hab value, ih values]

theorem admitsRest_iff_of_alike {a b : Option TypeExpr} (h : Option.Rel (Alike G) a b)
    (values : List Json) : AdmitsRest G a values ↔ AdmitsRest G b values := by
  cases h with
  | none => exact Iff.rfl
  | some h =>
    rw [AdmitsRest, AdmitsRest]
    exact forall₂_congr fun value _ => h value

theorem alike_tuple {as bs : List TypeExpr} {rest rest' : Option TypeExpr}
    (h : List.Forall₂ (Alike G) as bs) (hrest : Option.Rel (Alike G) rest rest') :
    Alike G (tuple as rest) (tuple bs rest') := by
  intro value
  rw [Admits, Admits]
  simp only [admitsEach_iff_of_alike h, admitsRest_iff_of_alike hrest]

/-! ### Objects -/

/-- The properties have one name, are both optional or both not, and have types that are alike. -/
structure AlikeProperty (G : List String → Json → Prop) (p q : Property TypeExpr) : Prop where
  name : p.name = q.name
  optional : p.optional = q.optional
  type : Alike G p.type q.type

theorem admitsProperties_iff_of_alike {ps qs : List (Property TypeExpr)}
    (h : List.Forall₂ (AlikeProperty G) ps qs) (fields : List (String × Json)) :
    AdmitsProperties G ps fields ↔ AdmitsProperties G qs fields := by
  induction h with
  | nil => exact Iff.rfl
  | @cons p q ps qs hpq _ ih =>
    rw [admitsProperties_iff, admitsProperties_iff] at ih ⊢
    rw [List.forall_mem_cons, List.forall_mem_cons, ih, hpq.name, hpq.optional]
    refine and_congr_left fun _ => ?_
    cases fields.lookup q.name with
    | none => exact Iff.rfl
    | some value => exact hpq.type value

/-- The names and marks of the properties are the same on both sides; only their types may
    differ. -/
theorem alike_object {ps qs : List (Property TypeExpr)}
    {index index' : Option (IndexSignature TypeExpr)} (h : List.Forall₂ (AlikeProperty G) ps qs)
    (hindex : Option.Rel (fun i j => Alike G i.type j.type) index index') :
    Alike G (object ps index) (object qs index') := by
  have hmembers (fields : List (String × Json)) :
      AdmitsIndex G index fields ↔ AdmitsIndex G index' fields := by
    cases hindex with
    | none => exact Iff.rfl
    | some hindex =>
      rw [admitsIndex_some_iff, admitsIndex_some_iff]
      exact forall_congr' fun name => forall₂_congr fun value _ => hindex value
  intro value
  rw [Admits, Admits]
  simp only [admitsProperties_iff_of_alike h, hmembers]

end Typewright.TypeExpr
