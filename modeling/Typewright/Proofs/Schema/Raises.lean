import Typewright.Proofs.Run.Guarded
import Typewright.Schema.Typing

/-!
# What diagnostics are about

A warning or a failure about a schema carries the location at which the schema was typed.
`Schema.Raises` tells which failures a schema raises itself, and not through a schema inside it;
`Warning.PointsInto` and `Failure.PointsInto` say that the location leads to the value that the
diagnostic is about.  The classification of a schema fails for one reason only
(`Schema.exists_typeNames_of_shape`).
-/

namespace Typewright

namespace Schema

/-! ### What a schema raises itself -/

/-- No rule covers the value: it is neither a boolean nor an object, or its classification finds
    none. -/
inductive Uncovered : Json → Prop where
  | malformed {value : Json} (boolean : value.kind ≠ .boolean) (object : value.kind ≠ .object) :
      Uncovered value
  | object {fields : List (String × Json)} {location : String}
      (shape : (Facts.ofJson (.object fields)).shape location none = .ok .unsupported) :
      Uncovered (.object fields)

/-- The value has an `enum` that is no array. -/
def HasUnlistedEnum (value : Json) : Prop :=
  ∃ values, value.field? "enum" = some values ∧ values.isArray = false

/-- The names that a type may have. -/
def typeWords : List String :=
  ["null", "boolean", "integer", "number", "string", "object", "array"]

/-- The failures that a value raises itself when it is typed at a location. -/
inductive Raises (location : String) (parent : Option Json) (value : Json) : Failure → Prop where
  | uncovered (covered : Uncovered value) : Raises location parent value (.unsupportedSchema location)
  | unlistedEnum (enum : HasUnlistedEnum value) :
      Raises location parent value (.unsupportedEnum location)
  /-- A `type`, its own or the one handed down, that is neither a string nor an array of strings. -/
  | illegibleType {declared : Json} (type : value.field? "type" = some declared ∨ parent = some declared)
      (names : typeNames location declared = .error (.badType declared.text location)) :
      Raises location parent value (.badType declared.text location)
  | unknownType {names : List String} {name : String}
      (shape : (Facts.ofJson value).shape location parent = .ok (.typed names)) (mem : name ∈ names)
      (unknown : name ∉ typeWords) : Raises location parent value (.badType name location)
  /-- Composing keywords, none of which holds an array. -/
  | branchless (composed : isComposed value = true)
      (unlisted : ∀ keyword ∈ compositionKeywords, value.items? keyword = none) :
      Raises location parent value (.composedSchemaUnsupported location)

end Schema

/-! ### Diagnostics that point at what they are about -/

/-- The warning carries the location of a value that it is about; warnings about operations carry
    none. -/
def Warning.PointsInto (root : Json) : Warning → Prop
  | .schemaDegraded reference =>
    ∃ value, Pointer.resolve root (Pointer.split reference) = .ok value ∧ Schema.Uncovered value
  | .enumDegraded reference =>
    ∃ value, Pointer.resolve root (Pointer.split reference) = .ok value ∧
      Schema.HasUnlistedEnum value
  | _ => True

/-- The reference that a failure carries. -/
def Failure.reference? : Failure → Option String
  | .unsupportedEnum reference => some reference
  | .unsupportedSchema reference => some reference
  | .badType _ reference => some reference
  | .composedSchemaUnsupported reference => some reference
  | .unsupportedHeader reference => some reference
  | .unresolved _ _ => none
  | .operationIdRequired _ _ => none

/-- The failure is about the value: it ends the typing of the value at the location, and the value
    raises it itself; or the value is a header described by `content`. -/
inductive Failure.About (location : String) (value : Json) (failure : Failure) : Prop where
  | schema {context : Context} {parent : Option Json} {names : EnumNames}
      (location_eq : context.location = location)
      (fails : ((Schema.ofJson value).typing context parent).Fails names failure)
      (raises : Schema.Raises location parent value failure)
  | header (content : (value.field? "content").isSome = true)
      (failure_eq : failure = .unsupportedHeader location)

/-- The reference that the failure carries, if any, leads to the value that it is about. -/
def Failure.PointsInto (root : Json) (failure : Failure) : Prop :=
  ∀ reference, failure.reference? = some reference →
    ∃ value, Pointer.resolve root (Pointer.split reference) = .ok value ∧
      failure.About reference value

namespace Schema

/-! ### Classification -/

section Shape

variable {facts : Facts} {location : String} {parent : Option Json} {failure : Failure}

theorem exists_error_of_mapM {α β : Type} {f : α → Except Failure β} {xs : List α}
    (h : xs.mapM f = .error failure) : ∃ x ∈ xs, f x = .error failure := by
  induction xs with
  | nil => simp [pure, Except.pure] at h
  | cons x xs ih =>
    rw [List.mapM_cons] at h
    -- The first element that fails gives the failure.
    cases hfirst : f x with
    | error other =>
      simp only [hfirst, bind, Except.bind, Except.error.injEq] at h
      exact ⟨x, List.mem_cons_self, h ▸ hfirst⟩
    | ok first =>
      cases hrest : xs.mapM f with
      | error other =>
        simp only [hfirst, hrest, bind, Except.bind, Except.error.injEq] at h
        obtain ⟨y, hy, hfails⟩ := ih (h ▸ hrest)
        exact ⟨y, List.mem_cons_of_mem _ hy, hfails⟩
      | ok rest => simp [hfirst, hrest, bind, Except.bind, pure, Except.pure] at h

theorem failure_eq_of_typeNames {declared : Json} (h : typeNames location declared = .error failure) :
    failure = .badType declared.text location := by
  unfold typeNames at h
  split at h
  · simp at h
  · -- The failure is the same at whichever item the list breaks off.
    obtain ⟨item, -, hitem⟩ := exists_error_of_mapM h
    split at hitem
    · simp at hitem
    · exact (Except.error.inj hitem).symm
  · exact (Except.error.inj h).symm

/-- The classification fails only where a `type`, its own or the one handed down, is not legible. -/
theorem exists_typeNames_of_shape (h : facts.shape location parent = .error failure) :
    ∃ declared, (facts.type = some declared ∨ parent = some declared) ∧
      typeNames location declared = .error failure := by
  have hmap {declared : Json} (hdeclared : facts.type = some declared ∨ parent = some declared)
      (hnames : (typeNames location declared).map Shape.typed = .error failure) :
      ∃ declared, (facts.type = some declared ∨ parent = some declared) ∧
        typeNames location declared = .error failure := by
    cases hresult : typeNames location declared with
    | error other =>
      rw [hresult] at hnames
      exact ⟨declared, hdeclared, by rw [hresult, Except.error.inj hnames]⟩
    | ok names => simp [hresult, Except.map] at hnames
  -- Only type names can fail: those of the schema itself, or those it inherits.
  unfold Facts.shape at h
  split at h
  · simp at h
  · split at h
    · simp at h
    · simp at h
    · simp at h
    · next htype _ _ _ => exact hmap (.inl htype) h
    · split at h
      · simp at h
      · split at h
        · simp at h
        · split at h
          · exact hmap (.inr rfl) h
          · simp at h

/-- Where a type is handed down, some rule covers the schema. -/
theorem shape_none_of_unsupported (h : facts.shape location parent = .ok .unsupported) :
    facts.shape location none = .ok .unsupported := by
  cases parent with
  | none => exact h
  | some inherited =>
    -- Inherited type names make the shape a typed one, so they play no part in this one.
    have hmap {declared : Json} : (typeNames location declared).map Shape.typed ≠ .ok .unsupported := by
      cases typeNames location declared <;> simp [Except.map]
    unfold Facts.shape at h
    split at h
    · simp at h
    · split at h
      · simp at h
      · simp at h
      · simp at h
      · exact absurd h hmap
      · split at h
        · simp at h
        · split at h
          · simp at h
          · exact absurd h hmap

end Shape

end Schema

end Typewright
