import Typewright.Api.Document
import Typewright.Proofs.Json.Fields
import Typewright.Proofs.Json.Inside

/-!
# The components of a normalized document

Normalizing a document adds empty kinds of components and changes nothing else: other fields stay as
they are, and what a reference to a component addresses is the component that is written in the
document.  No reference comes in (`references_normalize_subset`).
-/

namespace Typewright.Api

/-- The components of a kind, as they are written in a document. -/
def componentEntries (document : Json) (bucket : String) : List (String × Json) :=
  ((document.field? componentsKey).bind (·.entries? bucket)).getD []

/-- The fields of an object under a name, none if there is no object. -/
def fieldsUnder (fields : List (String × Json)) (name : String) : List (String × Json) :=
  ((fields.lookup name).bind Json.asObject?).getD []

theorem lookup_ensureObject (fields : List (String × Json)) (name key : String) :
    (ensureObject fields name).lookup key =
      if key = name then some (.object (fieldsUnder fields name)) else fields.lookup key := by
  unfold ensureObject fieldsUnder
  by_cases h : key = name
  · subst h
    rw [if_pos rfl]
    split
    · next entries hlookup => rw [hlookup]; rfl
    -- The bucket is missing or is no object, and in both cases holds no fields.
    · next hlookup =>
      rw [Json.lookup_setField_self]
      cases hvalue : fields.lookup key with
      | none => rfl
      | some value =>
        cases value with
        | object entries => exact absurd hvalue (hlookup entries)
        | _ => rfl
  · rw [if_neg h]
    split
    · rfl
    · exact Json.lookup_setField_of_ne h _ _

theorem fieldsUnder_ensureObject (fields : List (String × Json)) (name key : String) :
    fieldsUnder (ensureObject fields name) key = fieldsUnder fields key := by
  rw [fieldsUnder, lookup_ensureObject]
  split
  · next h => rw [h]; rfl
  · rfl

/-- Every kind of components is an object, with the components that were there. -/
theorem lookup_ensureObjects (names : List String) (fields : List (String × Json)) (key : String) :
    (names.foldl ensureObject fields).lookup key =
      if key ∈ names then some (.object (fieldsUnder fields key)) else fields.lookup key := by
  induction names generalizing fields with
  | nil => rfl
  | cons name rest ih =>
    rw [List.foldl_cons, ih, fieldsUnder_ensureObject, lookup_ensureObject]
    by_cases hrest : key ∈ rest
    · rw [if_pos hrest, if_pos (List.mem_cons_of_mem _ hrest)]
    · rw [if_neg hrest]
      by_cases hname : key = name
      · rw [if_pos hname, if_pos (hname ▸ List.mem_cons_self), hname]
      · rw [if_neg hname, if_neg fun hmem => (List.mem_cons.1 hmem).elim hname hrest]

/-! ### Normalized documents -/

section Normalized

variable {fields : List (String × Json)}

theorem field?_normalize {name : String} (h : name ≠ componentsKey) :
    (normalize (.object fields)).field? name = (Json.object fields).field? name := by
  rw [normalize, Json.field?_object, Json.field?_object, Json.lookup_setField_of_ne h]

/-- The components of a normalized document are those that were written, with an object for each kind. -/
theorem field?_normalize_componentsKey :
    (normalize (.object fields)).field? componentsKey =
      some (normalizeComponents ((fields.lookup componentsKey).getD (.object []))) :=
  Json.lookup_setField_self _ _ fields

theorem entries?_normalize {name : String} (h : name ≠ componentsKey) :
    (normalize (.object fields)).entries? name = (Json.object fields).entries? name := by
  rw [Json.entries?, Json.entries?, field?_normalize h]

theorem componentEntries_eq (fields : List (String × Json)) (bucket : String) :
    componentEntries (.object fields) bucket =
      fieldsUnder (((fields.lookup componentsKey).getD (.object [])).asObject?.getD []) bucket := by
  rw [componentEntries, Json.field?_object, fieldsUnder]
  cases fields.lookup componentsKey with
  | none => rfl
  | some components =>
    rw [Option.bind_some, Option.getD_some, Json.entries?, Json.field?]
    cases components.asObject? <;> rfl

/-- A path into the components of a normalized document leads to the components that are written. -/
theorem resolve_normalize {bucket : String} (h : bucket ∈ componentBuckets) (rest : List String) :
    Pointer.resolve (normalize (.object fields)) (componentsKey :: bucket :: rest) =
      Pointer.walk (componentsKey :: bucket :: rest)
        (.object (componentEntries (.object fields) bucket)) rest := by
  have hcomponents : Pointer.step? (normalize (.object fields)) componentsKey =
      some (normalizeComponents ((fields.lookup componentsKey).getD (.object []))) :=
    field?_normalize_componentsKey
  have hbucket : Pointer.step? (normalizeComponents ((fields.lookup componentsKey).getD (.object [])))
      bucket = some (.object (componentEntries (.object fields) bucket)) := by
    rw [componentEntries_eq]
    exact (lookup_ensureObjects componentBuckets _ bucket).trans (if_pos h)
  change Pointer.walk _ (normalize (.object fields)) _ = _
  rw [Pointer.walk, hcomponents]
  simp only
  rw [Pointer.walk, hbucket]

/-- A reference to a component of a normalized document addresses one that is written. -/
theorem mem_componentEntries_of_resolve {bucket name : String} {value : Json}
    (hbucket : bucket ∈ componentBuckets)
    (h : Pointer.resolve (normalize (.object fields)) [componentsKey, bucket, name] = .ok value) :
    (name, value) ∈ componentEntries (.object fields) bucket := by
  rw [resolve_normalize hbucket, Pointer.walk] at h
  split at h
  · next next hstep =>
    rw [← Except.ok.inj h]
    exact Json.mem_of_lookup hstep
  · exact absurd h (by simp)

theorem namesAt_normalize {bucket : String} (h : bucket ∈ componentBuckets) :
    namesAt (normalize (.object fields)) [componentsKey, bucket] =
      (componentEntries (.object fields) bucket).map (·.1) := by
  unfold namesAt
  rw [resolve_normalize h]
  rfl

theorem inside_of_mem_componentEntries {document value : Json} {bucket name : String}
    (h : (name, value) ∈ componentEntries document bucket) :
    ∃ entries, (Json.object entries).Inside document ∧ (name, value) ∈ entries := by
  unfold componentEntries at h
  cases hcomponents : document.field? componentsKey with
  | none => simp [hcomponents] at h
  | some components =>
    cases hentries : components.entries? bucket with
    | none => simp [hcomponents, hentries] at h
    | some entries =>
      rw [hcomponents, Option.bind_some, hentries, Option.getD_some] at h
      exact ⟨entries, .trans (Json.inside_of_field? (Json.entries?_eq_some.1 hentries))
        (Json.inside_of_field? hcomponents), h⟩

end Normalized

/-! ### References of a normalized document -/

section References

variable {fields : List (String × Json)} {name : String}

/-- Setting a field brings in the references of its value only. -/
theorem references_setField_subset (h : Pointer.keyword ≠ name) (value : Json) :
    Pointer.references (.object (Json.setField name value fields)) ⊆
      Pointer.references value ++ Pointer.references (.object fields) := by
  -- The field that is set is not the one that makes a reference object, so the object refers to
  -- what it did before.
  have htarget : Pointer.target? (.object (Json.setField name value fields)) =
      Pointer.target? (.object fields) := by
    rw [Pointer.target?, Pointer.target?, Json.string?, Json.string?, Json.field?_object,
      Json.field?_object, Json.lookup_setField_of_ne h]
  intro reference hreference
  rw [Pointer.references_object, htarget, List.mem_append] at hreference
  rw [Pointer.references_object, List.mem_append, List.mem_append]
  rcases hreference with hreference | hreference
  · exact .inr (.inl hreference)
  · obtain ⟨⟨key, inner⟩, hfield, hinner⟩ := List.mem_flatMap.1 hreference
    rcases Json.mem_setField hfield with hpair | hfield
    · obtain ⟨rfl, rfl⟩ := Prod.mk.inj hpair
      exact .inl hinner
    · exact .inr (.inr (List.mem_flatMap.2 ⟨_, hfield, hinner⟩))

/-- Making objects of fields brings in no references. -/
theorem references_ensureObjects_subset {names : List String} (h : Pointer.keyword ∉ names) :
    Pointer.references (.object (names.foldl ensureObject fields)) ⊆
      Pointer.references (.object fields) := by
  induction names generalizing fields with
  | nil => exact fun _ hreference => hreference
  | cons first rest ih =>
    have hfirst : Pointer.keyword ≠ first := fun heq => h (heq ▸ List.mem_cons_self)
    have hstep : Pointer.references (.object (ensureObject fields first)) ⊆
        Pointer.references (.object fields) := by
      unfold ensureObject
      split
      · exact fun _ hreference => hreference
      · exact references_setField_subset hfirst (.object [])
    intro reference hreference
    exact hstep (ih (fun hmem => h (List.mem_cons_of_mem _ hmem)) hreference)

theorem references_normalizeComponents_subset (components : Json) :
    Pointer.references (normalizeComponents components) ⊆ Pointer.references components := by
  have hbuckets : Pointer.keyword ∉ componentBuckets := by decide
  intro reference hreference
  have hfields := references_ensureObjects_subset hbuckets hreference
  -- What is no object is made an empty one.
  cases components with
  | object fields => exact hfields
  | _ => exact absurd hfields List.not_mem_nil

/-- Normalizing a document brings in no references. -/
theorem references_normalize_subset (document : Json) :
    Pointer.references (normalize document) ⊆ Pointer.references document := by
  cases document with
  | object fields =>
    have hne : Pointer.keyword ≠ componentsKey := by decide
    have hcomponents : Pointer.references ((fields.lookup componentsKey).getD (.object [])) ⊆
        Pointer.references (.object fields) := by
      cases hlookup : fields.lookup componentsKey with
      | none => exact List.nil_subset _
      | some components =>
        exact Pointer.references_subset_of_inside (.field (Json.mem_of_lookup hlookup))
    intro reference hreference
    rcases List.mem_append.1 (references_setField_subset hne _ hreference) with hreference | hreference
    · exact hcomponents (references_normalizeComponents_subset _ hreference)
    · exact hreference
  | _ => exact fun _ hreference => hreference

end References

end Typewright.Api
