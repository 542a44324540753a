import Typewright.Api.Document
import Typewright.Proofs.Pointer.Placed

/-!
# What paths resolve to

A path reaches a value from the root of a document when each of its segments names a child of the value
before it: a field of an object, or an item of an array by its index (`Pointer.Child`,
`Pointer.Reaches`).  `Pointer.Exact` says that resolving a path gives just the value it reaches, and
that a failure names the first segment of the path that has no child.

Whatever stands in a document without empty keys is reached by its own keys and indices, and a joined
reference keeps these (`Pointer.Addresses`); the references of the declared schemas are of this kind.
`Pointer.resolution_exact` puts these together.
-/

namespace Typewright

namespace Pointer

open Text (WritesWord)

variable {document value next target : Json} {segment : String} {path segments : List String}

/-! ### Children -/

/-- The child of a value under a segment: the field of an object with that name, or the item of an array
    whose index the segment writes. -/
inductive Child : Json → String → Json → Prop where
  | field {fields : List (String × Json)} {name : String} {value : Json}
      (lookup_eq : fields.lookup name = some value) : Child (.object fields) name value
  | item {items : List Json} {segment : String} {index : Nat} {value : Json}
      (writes : WritesWord segment index) (getElem?_eq : items[index]? = some value) :
      Child (.array items) segment value

/-- A step finds the child of a value, and nothing but a child. -/
theorem step?_eq_some_iff : step? value segment = some next ↔ Child value segment next := by
  constructor
  · intro h
    unfold step? at h
    split at h
    · exact .field h
    · obtain ⟨index, hindex, hitem⟩ := Option.bind_eq_some_iff.1 h
      exact .item (Text.word?_eq_some_iff.1 hindex) hitem
    · exact absurd h (by simp)
  · intro h
    cases h with
    | field hlookup => exact hlookup
    | item hwrites hitem =>
      exact Option.bind_eq_some_iff.2 ⟨_, Text.word?_eq_some_iff.2 hwrites, hitem⟩

/-- A step fails where there is no child of that name. -/
theorem step?_eq_none_iff : step? value segment = none ↔ ∀ next, ¬ Child value segment next := by
  simp only [← step?_eq_some_iff, Option.eq_none_iff_forall_ne_some, ne_eq]

/-! ### Paths -/

/-- The segments lead from the first value to the second one, child by child. -/
inductive Reaches : Json → List String → Json → Prop where
  | here (value : Json) : Reaches value [] value
  | child {value next target : Json} {segment : String} {segments : List String}
      (first : Child value segment next) (rest : Reaches next segments target) :
      Reaches value (segment :: segments) target

/-- A path that starts with these segments has no child at the next one. -/
structure StopsAt (value : Json) (before : List String) (segment : String) (stop : Json) : Prop where
  reaches : Reaches value before stop
  no_child : ∀ next, ¬ Child stop segment next

/-- A walk arrives just where its segments lead. -/
theorem walk_eq_ok_iff : walk path value segments = .ok target ↔ Reaches value segments target := by
  induction segments generalizing value with
  | nil =>
    rw [walk, Except.ok.injEq]
    constructor
    · rintro rfl
      exact .here value
    · intro h
      cases h
      rfl
  | cons segment segments ih =>
    rw [walk]
    constructor
    · intro h
      cases hstep : step? value segment with
      | none => simp [hstep] at h
      | some next =>
        rw [hstep] at h
        exact .child (step?_eq_some_iff.1 hstep) (ih.1 h)
    · intro h
      cases h with
      | child hfirst hrest =>
        rw [step?_eq_some_iff.2 hfirst]
        exact ih.2 hrest

/-- A walk that fails stops at its first segment without a child, and tells the whole path and that
    segment. -/
theorem walk_eq_error_iff {failure : Failure} :
    walk path value segments = .error failure ↔
      ∃ before segment after stop, segments = before ++ segment :: after ∧
        StopsAt value before segment stop ∧ failure = .unresolved path (some segment) := by
  induction segments generalizing value with
  | nil => simp [walk]
  | cons first segments ih =>
    rw [walk]
    cases hstep : step? value first with
    | none =>
      constructor
      · intro h
        obtain rfl : Failure.unresolved path (some first) = failure := Except.error.inj h
        exact ⟨[], first, segments, value, rfl, ⟨.here value, step?_eq_none_iff.1 hstep⟩, rfl⟩
      · rintro ⟨before, segment, after, stop, hsplit, hstops, rfl⟩
        cases before with
        | nil =>
          obtain ⟨rfl, -⟩ := List.cons.inj hsplit
          rfl
        | cons head before =>
          -- The walk would have taken the first segment.
          obtain ⟨rfl, -⟩ := List.cons.inj hsplit
          cases hstops.reaches with
          | child hfirst hrest => exact absurd hfirst (step?_eq_none_iff.1 hstep _)
    | some next =>
      have hchild := step?_eq_some_iff.1 hstep
      refine ih.trans ?_
      constructor
      · rintro ⟨before, segment, after, stop, rfl, hstops, rfl⟩
        exact ⟨first :: before, segment, after, stop, rfl,
          ⟨.child hchild hstops.reaches, hstops.no_child⟩, rfl⟩
      · rintro ⟨before, segment, after, stop, hsplit, hstops, rfl⟩
        cases before with
        | nil =>
          obtain ⟨rfl, -⟩ := List.cons.inj hsplit
          cases hstops.reaches
          exact absurd hchild (hstops.no_child next)
        | cons head before =>
          obtain ⟨rfl, hrest⟩ := List.cons.inj hsplit
          cases hstops.reaches with
          | child hfirst hreaches =>
            obtain rfl : _ = next :=
              Option.some.inj ((step?_eq_some_iff.2 hfirst).symm.trans hstep)
            exact ⟨before, segment, after, stop, hrest, ⟨hreaches, hstops.no_child⟩, rfl⟩

/-- Only a document that is `null` is told apart before the walk. -/
theorem resolve_eq_walk (h : document ≠ .null) (path : List String) :
    resolve document path = walk path document path := by
  cases document <;> first | rfl | exact absurd rfl h

/-- A path resolves to just the value that it reaches; else the failure tells the whole path and the
    first segment that has no child. -/
structure Exact (document : Json) : Prop where
  ok_iff : ∀ path value, resolve document path = .ok value ↔ Reaches document path value
  error_iff : ∀ path failure, resolve document path = .error failure ↔
    ∃ before segment after stop, path = before ++ segment :: after ∧
      StopsAt document before segment stop ∧ failure = .unresolved path (some segment)

theorem exact_of_ne_null (h : document ≠ .null) : Exact document where
  ok_iff path value := by rw [resolve_eq_walk h, walk_eq_ok_iff]
  error_iff path failure := by rw [resolve_eq_walk h, walk_eq_error_iff]

/-! ### Positions -/

/-- A step down in a document: to the field of that name or to the item of that index. -/
inductive Key where
  | field (name : String)
  | item (index : Nat)

/-- The segment that takes the step. -/
def Key.toSegment : Key → String
  | .field name => name
  | .item index => toString index

/-- The keys lead from the first value to the second one. -/
inductive At : Json → List Key → Json → Prop where
  | here (value : Json) : At value [] value
  | field {fields : List (String × Json)} {name : String} {next target : Json} {keys : List Key}
      (mem : (name, next) ∈ fields) (rest : At next keys target) :
      At (.object fields) (.field name :: keys) target
  | item {items : List Json} {index : Nat} {next target : Json} {keys : List Key}
      (getElem?_eq : items[index]? = some next) (rest : At next keys target) :
      At (.array items) (.item index :: keys) target

/-- Whatever stands in a document that can be addressed is reached by segments that are not empty. -/
theorem At.reaches {keys : List Key} (h : At value keys target) (haddressable : value.Addressable) :
    Reaches value (keys.map Key.toSegment) target ∧
      ∀ segment ∈ keys.map Key.toSegment, segment ≠ "" := by
  induction h with
  | here value => exact ⟨.here value, List.forall_mem_nil _⟩
  | @field fields name next target keys hmem hrest ih =>
    obtain ⟨hnodup, hfields⟩ := Json.addressable_object_iff.1 haddressable
    obtain ⟨hname, hnext⟩ := hfields _ hmem
    obtain ⟨hreaches, hsegments⟩ := ih hnext
    have hchild : Child (.object fields) name next := .field (Json.lookup_of_mem hnodup hmem)
    exact ⟨.child hchild hreaches, List.forall_mem_cons.2 ⟨hname, hsegments⟩⟩
  | @item items index next target keys hitem hrest ih =>
    -- The index is in the range of machine words, so its digits are read back.
    have hlength := (Json.wellFormed_array_iff.1 haddressable.wellFormed).1
    have hnext := haddressable.of_inside (.item (List.mem_of_getElem? hitem))
    obtain ⟨hreaches, hsegments⟩ := ih hnext
    have hchild : Child (.array items) (toString index) next :=
      step?_eq_some_iff.1 (step?_of_getElem? hlength hitem)
    exact ⟨.child hchild hreaches, List.forall_mem_cons.2 ⟨Text.toString_ne_empty index, hsegments⟩⟩

/-- Segments that are not empty and reach a value resolve to it as a reference. -/
theorem Reaches.resolve_join (hnull : document ≠ .null) (h : Reaches document segments value)
    (hsegments : ∀ segment ∈ segments, segment ≠ "") :
    resolve document (split (join segments)) = .ok value := by
  rw [split_join hsegments]
  exact ((exact_of_ne_null hnull).ok_iff segments value).2 h

/-! ### Declared schemas -/

/-- A way may be continued by one more step. -/
theorem Reaches.concat (h : Reaches value segments next) (hchild : Child next segment target) :
    Reaches value (segments ++ [segment]) target := by
  induction h with
  | here value => exact .child hchild (.here target)
  | child hfirst _ ih => exact .child hfirst (ih hchild)

/-- The reference is the one of a schema that the document declares by name. -/
def DeclaresSchema (document : Json) (kind : DocumentKind) (reference : String) (schema : Json) : Prop :=
  ∃ bucket ∈ Api.schemaBuckets kind, ∃ fields name, Reaches document bucket (.object fields) ∧
    (name, schema) ∈ fields ∧ reference = join (bucket ++ [name])

theorem ne_empty_of_mem_schemaBuckets {kind : DocumentKind} {bucket : List String}
    (h : bucket ∈ Api.schemaBuckets kind) : ∀ segment ∈ bucket, segment ≠ "" := by
  cases kind <;> revert bucket <;> decide

/-- The reference of a declared schema resolves to it. -/
theorem DeclaresSchema.resolve_eq {kind : DocumentKind} {reference : String} {schema : Json}
    (h : DeclaresSchema document kind reference schema) (hnull : document ≠ .null)
    (haddressable : document.Addressable) : resolve document (split reference) = .ok schema := by
  obtain ⟨bucket, hbucket, fields, name, hreaches, hmem, rfl⟩ := h
  -- The object that holds the schema can be addressed as well, so the name is not empty.
  have hresolve := ((exact_of_ne_null hnull).ok_iff bucket _).2 hreaches
  have hfields : (Json.object fields).Addressable := by
    rcases eq_or_inside_of_resolve hresolve with heq | hinside
    · exact heq ▸ haddressable
    · exact haddressable.of_inside hinside
  obtain ⟨hnodup, hname⟩ := Json.addressable_object_iff.1 hfields
  refine (hreaches.concat (.field (Json.lookup_of_mem hnodup hmem))).resolve_join hnull ?_
  refine List.forall_mem_append.2 ⟨ne_empty_of_mem_schemaBuckets hbucket, ?_⟩
  exact List.forall_mem_singleton.2 (hname _ hmem).1

end Pointer

end Typewright
