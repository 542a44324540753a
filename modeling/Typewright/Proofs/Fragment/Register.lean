import Typewright.Proofs.Fragment.Store
import Typewright.Proofs.TypeExpr.Mentions

/-!
# Registers of names

A `Register` says which references may be announced by an assumed fragment, by which path a
reference is mentioned, under which path it is declared, and which references are those of members.
A set of fragments is registered when all its fragments keep to the register, and every path that
one of them mentions belongs to a reference of the set (`Register.Registered`).  A mentioned path may
still be announced only; it is declared when its reference is expanded.
-/

namespace Typewright

/-- Which references may be announced, and the paths of each reference. -/
structure Register where
  announced : String → Prop
  /-- The reference is mentioned by that path. -/
  names : String → List String → Prop
  /-- The reference may be declared under that path. -/
  declares : String → List String → Prop
  /-- The reference may be that of a member. -/
  members : String → Prop

namespace Register

variable {R : Register} {set other : FragmentSet} {fragment : Fragment} {path : List String}

/-- The path belongs to a reference of the set. -/
def Provides (R : Register) (set : FragmentSet) (path : List String) : Prop :=
  ∃ reference, set.Stored reference ∧ R.names reference path

/-- An assumed fragment is announced; a concrete one declares its reference under one of the paths
    for it, or is a member where members may be. -/
def Allows (R : Register) (fragment : Fragment) : Prop :=
  match fragment with
  | .assumed reference => R.announced reference
  | .statement reference name _ => R.declares reference [name]
  | .declaration reference path _ => R.declares reference path
  | .member reference _ _ _ => R.members reference

/-- All fragments keep to the register, and what they mention is provided. -/
structure Registered (R : Register) (set : FragmentSet) : Prop where
  allowed : ∀ fragment ∈ set.fragments, R.Allows fragment
  closed : ∀ fragment ∈ set.fragments, ∀ path ∈ fragment.mentions, R.Provides set path

/-! ### Provided paths -/

/-- What a set provides it provides with more fragments too. -/
theorem Provides.push (h : R.Provides set path) (fragment : Fragment) :
    R.Provides (set.push fragment) path := by
  obtain ⟨reference, hstored, hnames⟩ := h
  exact ⟨reference, hstored.push fragment, hnames⟩

/-- What a set provides survives what is merged into it. -/
theorem Provides.extend (h : R.Provides set path) (other : FragmentSet) :
    R.Provides (set.extend other) path := by
  obtain ⟨reference, hstored, hnames⟩ := h
  exact ⟨reference, hstored.extend other, hnames⟩

/-- A set that is merged in provides its paths to the whole. -/
theorem provides_extend (h : R.Provides other path) : R.Provides (set.extend other) path := by
  obtain ⟨reference, hstored, hnames⟩ := h
  exact ⟨reference, FragmentSet.stored_extend hstored, hnames⟩

theorem provides_push_self (h : R.names fragment.reference path) :
    R.Provides (set.push fragment) path :=
  ⟨fragment.reference, FragmentSet.stored_push_self, h⟩

/-! ### Registered sets -/

theorem registered_empty {warnings : List Warning} {operations : List String} :
    R.Registered { warnings, operations } :=
  ⟨fun _ h => absurd h List.not_mem_nil, fun _ h => absurd h List.not_mem_nil⟩

/-- A fragment may be added if it is allowed and the paths that it mentions are provided, by
    itself or by the others. -/
theorem Registered.push (h : R.Registered set) (hallowed : R.Allows fragment)
    (hclosed : ∀ path ∈ fragment.mentions, R.Provides (set.push fragment) path) :
    R.Registered (set.push fragment) := by
  refine ⟨fun other hother => ?_, fun other hother path hpath => ?_⟩
  · rcases Fragment.mem_put hother with hother | rfl
    · exact h.allowed other hother
    · exact hallowed
  · rcases Fragment.mem_put hother with hother | rfl
    · exact (h.closed other hother path hpath).push fragment
    · exact hclosed path hpath

theorem Registered.announce {reference : String} (h : R.Registered set)
    (hannounced : R.announced reference) : R.Registered (set.push (.assumed reference)) :=
  h.push hannounced fun _ hpath => absurd hpath List.not_mem_nil

/-- Merging keeps both sets registered: what one provides the other may rely on. -/
theorem Registered.extend (h : R.Registered set) (hother : R.Registered other) :
    R.Registered (set.extend other) := by
  refine ⟨fun fragment hfragment => ?_, fun fragment hfragment path hpath => ?_⟩
  · rcases Fragment.mem_combine hfragment with hmem | hmem
    · exact h.allowed fragment hmem
    · exact hother.allowed fragment hmem
  · rcases Fragment.mem_combine hfragment with hmem | hmem
    · exact (h.closed fragment hmem path hpath).extend other
    · exact provides_extend (hother.closed fragment hmem path hpath)

theorem Registered.warn (h : R.Registered set) (warning : Warning) : R.Registered (set.warn warning) :=
  ⟨h.allowed, h.closed⟩

/-- In a registered set whose assumed references are never mentioned, every path that is mentioned
    is declared. -/
theorem Registered.exists_declaring (h : R.Registered set)
    (hdeclares : ∀ reference path path', R.names reference path → R.declares reference path' →
      path' = path)
    (hmembers : ∀ reference path, R.names reference path → ¬ R.members reference)
    (hassumed : ∀ reference, .assumed reference ∈ set.fragments → ∀ path, ¬ R.names reference path)
    (hfragment : fragment ∈ set.fragments) (hpath : path ∈ fragment.mentions) :
    ∃ declaring ∈ set.fragments, declaring.declaredPath? = some path := by
  obtain ⟨reference, hstored, hnames⟩ := h.closed fragment hfragment path hpath
  obtain ⟨declaring, hdeclaring, rfl⟩ := List.mem_map.1 hstored
  have hallowed := h.allowed declaring hdeclaring
  refine ⟨declaring, hdeclaring, ?_⟩
  cases declaring with
  | statement reference name type => exact congrArg some (hdeclares _ _ _ hnames hallowed)
  | declaration reference path' body => exact congrArg some (hdeclares _ _ _ hnames hallowed)
  | member reference path' optional body => exact absurd hallowed (hmembers _ _ hnames)
  | assumed reference => exact absurd hnames (hassumed reference hdeclaring path)

/-! ### Registered typings -/

/-- What came up is registered, and what the types mention is provided by it. -/
structure TypingRegistered (R : Register) (typing : Typing) : Prop where
  emitted : R.Registered typing.emitted
  closed : ∀ type ∈ typing.types, ∀ path ∈ type.mentions, R.Provides typing.emitted path

theorem typingRegistered_ofType {type : TypeExpr} (h : type.mentions = []) :
    R.TypingRegistered (Typing.ofType type) := by
  refine ⟨registered_empty, fun other hother path hpath => ?_⟩
  rw [List.mem_singleton.1 hother, h] at hpath
  exact absurd hpath List.not_mem_nil

theorem TypingRegistered.warn {typing : Typing} (h : R.TypingRegistered typing) (warning : Warning) :
    R.TypingRegistered (typing.withWarning warning) :=
  ⟨h.emitted.warn warning, h.closed⟩

/-- The union of the types of a typing mentions only what its fragments provide. -/
theorem TypingRegistered.unionType {typing : Typing} (h : R.TypingRegistered typing)
    (hpath : path ∈ typing.unionType.mentions) : R.Provides typing.emitted path := by
  obtain ⟨type, htype, hpath⟩ := TypeExpr.mem_mentions_unionOf_iff.1 hpath
  exact h.closed type htype path hpath

theorem TypingRegistered.united {typing : Typing} (h : R.TypingRegistered typing) :
    R.TypingRegistered typing.united := by
  refine ⟨h.emitted, fun type htype path hpath => ?_⟩
  rw [List.mem_singleton.1 htype] at hpath
  exact h.unionType hpath

/-! ### Several typings -/

/-- What merging keeps holds of all that typings emit. -/
theorem foldl_extend_induction {P : FragmentSet → Prop} {typings : List Typing}
    (hempty : P set) (hstep : ∀ set, ∀ typing ∈ typings, P set → P (set.extend typing.emitted)) :
    P (typings.foldl (fun set typing => set.extend typing.emitted) set) := by
  induction typings generalizing set with
  | nil => exact hempty
  | cons typing typings ih =>
    exact ih (hstep _ typing List.mem_cons_self hempty) fun set other hother =>
      hstep set other (List.mem_cons_of_mem _ hother)

/-- What registered typings emit together is registered. -/
theorem registered_emittedOf {typings : List Typing}
    (h : ∀ typing ∈ typings, R.Registered typing.emitted) :
    R.Registered (Schema.emittedOf typings) :=
  foldl_extend_induction (P := R.Registered) registered_empty fun _ typing htyping hset =>
    hset.extend (h typing htyping)

/-- A path that one typing provides is provided by all of them together. -/
theorem provides_emittedOf {typings : List Typing} {typing : Typing} (htyping : typing ∈ typings)
    (h : R.Provides typing.emitted path) : R.Provides (Schema.emittedOf typings) path := by
  obtain ⟨before, after, rfl⟩ := List.append_of_mem htyping
  unfold Schema.emittedOf
  rw [List.foldl_append, List.foldl_cons]
  exact foldl_extend_induction (P := (R.Provides · path)) (provides_extend h)
    fun _ other _ hset => hset.extend other.emitted

/-- A typing put together from other typings: what its types mention comes from them. -/
theorem typingRegistered_of_parts {typings : List Typing} {types : List TypeExpr}
    (h : ∀ typing ∈ typings, R.TypingRegistered typing)
    (htypes : ∀ type ∈ types, ∀ path ∈ type.mentions,
      ∃ typing ∈ typings, ∃ part ∈ typing.types, path ∈ part.mentions) :
    R.TypingRegistered { types, emitted := Schema.emittedOf typings } := by
  refine ⟨registered_emittedOf fun typing htyping => (h typing htyping).emitted,
    fun type htype path hpath => ?_⟩
  obtain ⟨typing, htyping, part, hpart, hpath⟩ := htypes type htype path hpath
  exact provides_emittedOf htyping ((h typing htyping).closed part hpart path hpath)

end Register

end Typewright
