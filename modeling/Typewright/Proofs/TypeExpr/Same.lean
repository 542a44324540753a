import Typewright.TypeExpr.Basic

/-!
# Equal types

`TypeExpr.same` compares types part by part, and numbers by value.  It is an equivalence, though not the
equality of types: the literals `0.0` and `-0.0` are the same.
-/

namespace Typewright

/-! ### Literals -/

namespace Literal

theorem same_comm (a b : Literal) : a.same b = b.same a := by
  cases a <;> cases b <;> simp only [same]
  case boolean.boolean => exact BEq.comm
  case number.number => exact Bool.eq_iff_iff.2 ⟨Number.same_symm, Number.same_symm⟩
  case string.string => exact BEq.comm

theorem same_refl (a : Literal) : a.same a = true := by
  cases a <;> simp [same, Number.same_refl]

theorem same_trans {a b c : Literal} (hab : a.same b = true) (hbc : b.same c = true) :
    a.same c = true := by
  cases a <;> cases b <;> simp only [same, Bool.false_eq_true] at hab <;> cases c <;>
    simp only [same, Bool.false_eq_true] at hbc ⊢
  case boolean.boolean.boolean => exact BEq.trans hab hbc
  case number.number.number => exact Number.same_trans hab hbc
  case string.string.string => exact BEq.trans hab hbc

end Literal

namespace TypeExpr

/-! ### Symmetry -/

mutual

theorem same_comm (a b : TypeExpr) : a.same b = b.same a := by
  cases a <;> cases b <;> simp only [same]
  case literal.literal a b => exact Literal.same_comm a b
  case reference.reference => exact BEq.comm
  case nonNullable.nonNullable a b => exact same_comm a b
  case union.union as bs => exact sameAll_comm as bs
  case intersection.intersection as bs => exact sameAll_comm as bs
  case array.array a b => exact same_comm a b
  case tuple.tuple as rest bs rest' => rw [sameAll_comm as bs, sameRest_comm rest rest']
  case object.object ps index qs index' =>
    rw [sameProperties_comm ps qs, sameIndex_comm index index']
termination_by structural a

/-- Lists are compared member by member. -/
theorem sameAll_comm (as bs : List TypeExpr) : sameAll as bs = sameAll bs as := by
  cases as <;> cases bs <;> simp only [sameAll]
  case cons.cons a as b bs => rw [same_comm a b, sameAll_comm as bs]
termination_by structural as

theorem sameRest_comm (a b : Option TypeExpr) : sameRest a b = sameRest b a := by
  cases a <;> cases b <;> simp only [sameRest]
  case some.some a b => exact same_comm a b
termination_by structural a

/-- Properties are compared by name, marks and type, place by place. -/
theorem sameProperties_comm (ps qs : List (Property TypeExpr)) :
    sameProperties ps qs = sameProperties qs ps := by
  cases ps with
  | nil => cases qs <;> simp only [sameProperties]
  | cons p ps =>
    obtain ⟨name, a, optional, readonly⟩ := p
    cases qs with
    | nil => simp only [sameProperties]
    | cons q qs =>
      obtain ⟨name', b, optional', readonly'⟩ := q
      simp only [sameProperties]
      rw [same_comm a b, sameProperties_comm ps qs, Bool.beq_comm (a := optional),
        Bool.beq_comm (a := readonly), BEq.comm (a := name)]
termination_by structural ps

/-- Index signatures are compared by marks and type. -/
theorem sameIndex_comm (i j : Option (IndexSignature TypeExpr)) : sameIndex i j = sameIndex j i := by
  cases i with
  | none => cases j <;> simp only [sameIndex]
  | some i =>
    obtain ⟨a, optional, readonly⟩ := i
    cases j with
    | none => simp only [sameIndex]
    | some j =>
      obtain ⟨b, optional', readonly'⟩ := j
      simp only [sameIndex]
      rw [same_comm a b, Bool.beq_comm (a := optional), Bool.beq_comm (a := readonly)]
termination_by structural i

end

/-! ### Reflexivity -/

mutual

theorem same_refl (a : TypeExpr) : a.same a = true := by
  cases a with
  | literal value => rw [same, Literal.same_refl value]
  | nonNullable type => rw [same, same_refl type]
  | union members => rw [same, sameAll_refl members]
  | intersection members => rw [same, sameAll_refl members]
  | array element => rw [same, same_refl element]
  | tuple elements rest => rw [same, sameAll_refl elements, sameRest_refl rest, Bool.true_and]
  | object properties index =>
    rw [same, sameProperties_refl properties, sameIndex_refl index, Bool.true_and]
  | _ => simp [same]
termination_by structural a

theorem sameAll_refl (as : List TypeExpr) : sameAll as as = true := by
  cases as with
  | nil => simp only [sameAll]
  | cons a as => rw [sameAll, same_refl a, sameAll_refl as, Bool.true_and]
termination_by structural as

theorem sameRest_refl (a : Option TypeExpr) : sameRest a a = true := by
  cases a with
  | none => simp only [sameRest]
  | some a => rw [sameRest, same_refl a]
termination_by structural a

theorem sameProperties_refl (ps : List (Property TypeExpr)) : sameProperties ps ps = true := by
  cases ps with
  | nil => simp only [sameProperties]
  | cons p ps =>
    obtain ⟨name, a, optional, readonly⟩ := p
    simp [sameProperties, same_refl a, sameProperties_refl ps]
termination_by structural ps

theorem sameIndex_refl (i : Option (IndexSignature TypeExpr)) : sameIndex i i = true := by
  cases i with
  | none => simp only [sameIndex]
  | some i =>
    obtain ⟨a, optional, readonly⟩ := i
    simp [sameIndex, same_refl a]
termination_by structural i

end

/-! ### Transitivity -/

mutual

theorem same_trans {a b c : TypeExpr} (hab : a.same b = true) (hbc : b.same c = true) :
    a.same c = true := by
  cases a <;> cases b <;> simp only [same, Bool.and_eq_true, Bool.false_eq_true] at hab <;> cases c <;>
    simp only [same, Bool.and_eq_true, Bool.false_eq_true] at hbc ⊢
  case literal.literal.literal => exact Literal.same_trans hab hbc
  case reference.reference.reference => exact BEq.trans hab hbc
  case nonNullable.nonNullable.nonNullable => exact same_trans hab hbc
  case union.union.union => exact sameAll_trans hab hbc
  case intersection.intersection.intersection => exact sameAll_trans hab hbc
  case array.array.array => exact same_trans hab hbc
  case tuple.tuple.tuple => exact ⟨sameAll_trans hab.1 hbc.1, sameRest_trans hab.2 hbc.2⟩
  case object.object.object =>
    exact ⟨sameProperties_trans hab.1 hbc.1, sameIndex_trans hab.2 hbc.2⟩
termination_by structural a

theorem sameAll_trans {as bs cs : List TypeExpr} (hab : sameAll as bs = true)
    (hbc : sameAll bs cs = true) : sameAll as cs = true := by
  cases as <;> cases bs <;> simp only [sameAll, Bool.and_eq_true, Bool.false_eq_true] at hab <;>
    cases cs <;> simp only [sameAll, Bool.and_eq_true, Bool.false_eq_true] at hbc ⊢
  case cons.cons.cons => exact ⟨same_trans hab.1 hbc.1, sameAll_trans hab.2 hbc.2⟩
termination_by structural as

theorem sameRest_trans {a b c : Option TypeExpr} (hab : sameRest a b = true)
    (hbc : sameRest b c = true) : sameRest a c = true := by
  cases a <;> cases b <;> simp only [sameRest, Bool.false_eq_true] at hab <;> cases c <;>
    simp only [sameRest, Bool.false_eq_true] at hbc ⊢
  case some.some.some => exact same_trans hab hbc
termination_by structural a

theorem sameProperties_trans {ps qs rs : List (Property TypeExpr)} (hpq : sameProperties ps qs = true)
    (hqr : sameProperties qs rs = true) : sameProperties ps rs = true := by
  cases ps with
  | nil =>
    cases qs with
    | nil => exact hqr
    | cons q qs => simp [sameProperties] at hpq
  | cons p ps =>
    obtain ⟨name, a, optional, readonly⟩ := p
    cases qs with
    | nil => simp [sameProperties] at hpq
    | cons q qs =>
      obtain ⟨name', b, optional', readonly'⟩ := q
      cases rs with
      | nil => simp [sameProperties] at hqr
      | cons r rs =>
        simp only [sameProperties, Bool.and_eq_true, beq_iff_eq] at hpq hqr ⊢
        obtain ⟨⟨⟨⟨rfl, hab⟩, rfl⟩, rfl⟩, hpq⟩ := hpq
        obtain ⟨⟨⟨⟨hname, hbc⟩, hoptional⟩, hreadonly⟩, hqr⟩ := hqr
        exact ⟨⟨⟨⟨hname, same_trans hab hbc⟩, hoptional⟩, hreadonly⟩, sameProperties_trans hpq hqr⟩
termination_by structural ps

theorem sameIndex_trans {i j k : Option (IndexSignature TypeExpr)} (hij : sameIndex i j = true)
    (hjk : sameIndex j k = true) : sameIndex i k = true := by
  cases i with
  | none =>
    cases j with
    | none => exact hjk
    | some j => simp [sameIndex] at hij
  | some i =>
    obtain ⟨a, optional, readonly⟩ := i
    cases j with
    | none => simp [sameIndex] at hij
    | some j =>
      obtain ⟨b, optional', readonly'⟩ := j
      cases k with
      | none => simp [sameIndex] at hjk
      | some k =>
        simp only [sameIndex, Bool.and_eq_true, beq_iff_eq] at hij hjk ⊢
        obtain ⟨⟨hab, rfl⟩, rfl⟩ := hij
        obtain ⟨⟨hbc, hoptional⟩, hreadonly⟩ := hjk
        exact ⟨⟨same_trans hab hbc, hoptional⟩, hreadonly⟩
termination_by structural i

end

instance : EquivBEq TypeExpr where
  rfl := same_refl _
  symm h := (same_comm _ _).trans h
  trans := same_trans

end TypeExpr

end Typewright
