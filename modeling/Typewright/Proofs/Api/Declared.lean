import Typewright.Api.Declaration
import Typewright.Proofs.Schema.Registered

/-!
# Declarations keep to a register

What is declared for a parameter, a request body, a header or a response keeps to a register that
covers the references in its value and takes the sites where it is declared.  The reference of the
site itself is declared by a concrete fragment (`Register.RegisteredAt`).
-/

namespace Typewright.Register

open Api

variable {R : Register} {walk : Walk} {set : FragmentSet} {site : Site}

/-! ### Sites -/

/-- Something may be declared at the site. -/
def Declares (R : Register) (site : Site) : Prop :=
  R.declares site.reference site.path

/-- The site is mentioned by its path. -/
def Names (R : Register) (site : Site) : Prop :=
  R.names site.reference site.path

/-- A response may be declared at the site. -/
structure TakesResponse (R : Register) (site : Site) : Prop where
  declares : R.Declares site
  body : R.members (site.child "body" "body").reference
  headers : R.members (site.child "headers" "headers").reference
  header : ∀ name, R.members ((site.child "headers" "headers").child name name).reference

/-- The set is registered, and something is declared under the reference. -/
structure RegisteredAt (R : Register) (reference : String) (set : FragmentSet) : Prop where
  registered : R.Registered set
  declared : set.Declared reference

/-! ### Adding to a set -/

/-- What a schema brought up is added first, then a fragment of the schema's type. -/
theorem Registered.push_typing {typing : Typing} {fragment : Fragment} (h : R.Registered set)
    (htyping : R.TypingRegistered typing) (hallowed : R.Allows fragment)
    (hmentions : fragment.mentions = (TypeExpr.unionOf typing.types).mentions) :
    R.Registered ((set.extend typing.emitted).push fragment) := by
  refine (h.extend htyping.emitted).push hallowed fun path hpath => ?_
  rw [hmentions] at hpath
  exact (provides_extend (htyping.unionType hpath)).push fragment

/-- A reference is announced first, then a fragment that mentions its path only. -/
theorem Registered.push_redirect {reference : String} {fragment : Fragment} (h : R.Registered set)
    (hannounced : R.announced reference) (hnames : R.names reference (walk.context.pathOf reference))
    (hallowed : R.Allows fragment) (hmentions : fragment.mentions = [walk.context.pathOf reference]) :
    R.Registered ((set.push (.assumed reference)).push fragment) := by
  refine (h.announce hannounced).push hallowed fun path hpath => ?_
  rw [hmentions, List.mem_singleton] at hpath
  rw [hpath]
  exact (provides_push_self hnames).push fragment

/-- A redirect mentions the path of its reference, which it announces itself. -/
theorem registeredAt_redirectDeclaration {reference : String} (hsite : R.Declares site)
    (hannounced : R.announced reference)
    (hnames : R.names reference (walk.context.pathOf reference)) :
    R.RegisteredAt site.reference (walk.redirectDeclaration site reference) :=
  ⟨registered_empty.push_redirect hannounced hnames hsite rfl, FragmentSet.declared_push_self rfl⟩

/-- A declared type mentions what its typing mentions, and the typing provides it. -/
theorem registeredAt_typeDeclaration {typing : Typing} (hsite : R.Declares site)
    (htyping : R.TypingRegistered typing) :
    R.RegisteredAt site.reference (Walk.typeDeclaration site typing) :=
  ⟨registered_empty.push_typing htyping hsite rfl, FragmentSet.declared_push_self rfl⟩

/-! ### Types -/

section Types

variable {location hint : String} {value : Json}

/-- The references in the value may be announced by the walk. -/
def CoversIn (R : Register) (walk : Walk) (value : Json) : Prop :=
  R.Covers walk.context.baseName value

/-- The target of a reference object is one of the references of the value. -/
theorem CoversIn.target (h : R.CoversIn walk value) {reference : String}
    (htarget : Pointer.target? value = some reference) :
    R.announced reference ∧ R.names reference (walk.context.pathOf reference) :=
  h reference (Pointer.mem_references_of_target? htarget)

/-- A schema announces and mentions only references that are written in it. -/
theorem gives_schemaTyping (hR : R.TakesEnums) (h : R.CoversIn walk value) :
    (walk.schemaTyping location hint value).Gives R.TypingRegistered :=
  Run.gives_map (gives_typing hR value _ none h) fun _ htyping => htyping.united

theorem gives_ownSchemaTyping (hR : R.TakesEnums) (h : R.CoversIn walk value) :
    (walk.ownSchemaTyping location hint value).Gives R.TypingRegistered := by
  unfold Walk.ownSchemaTyping
  split
  · next schema hschema =>
    exact gives_schemaTyping hR (Covers.of_inside h (Json.inside_of_field? hschema))
  · exact Run.gives_pure (typingRegistered_ofType rfl)

theorem gives_mediaTypings (hR : R.TakesEnums) {content : List (String × Json)}
    (h : ∀ media ∈ content, R.CoversIn walk media.2) :
    (walk.mediaTypings location hint content).Gives R.AllRegistered := by
  induction content with
  | nil => exact Run.gives_pure fun typing htyping => absurd htyping List.not_mem_nil
  | cons media rest ih =>
    rw [Walk.mediaTypings]
    refine Run.gives_bind (gives_ownSchemaTyping hR (h media List.mem_cons_self)) fun first hfirst => ?_
    refine Run.gives_bind (ih fun media hmedia => h media (List.mem_cons_of_mem _ hmedia))
      fun others hothers => ?_
    exact Run.gives_pure (List.forall_mem_cons.2 ⟨hfirst, hothers⟩)

/-- The union of the media types mentions what they mention. -/
theorem gives_contentTyping (hR : R.TakesEnums) {content : List (String × Json)}
    (h : ∀ media ∈ content, R.CoversIn walk media.2) :
    (walk.contentTyping location hint content).Gives R.TypingRegistered := by
  refine Run.gives_bind (gives_mediaTypings hR h) fun typings htypings => ?_
  refine Run.gives_pure (typingRegistered_of_parts htypings fun type htype path hpath => ?_)
  rw [List.mem_singleton.1 htype] at hpath
  obtain ⟨part, hpart, hpath⟩ := TypeExpr.mem_mentions_unionOf_iff.1 hpath
  obtain ⟨typing, htyping, rfl⟩ := List.mem_map.1 hpart
  exact ⟨typing, htyping, TypeExpr.mem_mentions_unionOf_iff.1 hpath⟩

/-- The references of an entry are references of the value. -/
theorem covers_of_nonemptyEntries? {name : String} {entries : List (String × Json)}
    (h : R.CoversIn walk value) (hentries : Walk.nonemptyEntries? value name = some entries) :
    ∀ entry ∈ entries, R.CoversIn walk entry.2 := by
  intro entry hentry
  have hsome := (Option.filter_eq_some_iff.1 hentries).1
  exact Covers.of_inside h (Json.inside_of_mem_entries? hsome hentry)

end Types

/-! ### Parameters and request bodies -/

section Values

variable {location hint : String} {value : Json}

theorem gives_parameterTyping (hR : R.TakesEnums) (h : R.CoversIn walk value) :
    (walk.parameterTyping location hint value).Gives R.TypingRegistered := by
  unfold Walk.parameterTyping
  split
  · next mediaType media _ hhead =>
    obtain ⟨content, hcontent, hhead⟩ := Option.bind_eq_some_iff.1 hhead
    have hmem := List.mem_of_head? hhead
    exact gives_ownSchemaTyping hR (Covers.of_inside h (Json.inside_of_mem_entries? hcontent hmem))
  · exact gives_ownSchemaTyping hR h

theorem gives_parameterDeclaration (hR : R.TakesEnums) (h : R.CoversIn walk value)
    (hsite : R.Declares site) :
    (walk.parameterDeclaration site location value).Gives (R.RegisteredAt site.reference) := by
  unfold Walk.parameterDeclaration
  split
  · next reference htarget =>
    obtain ⟨hannounced, hnames⟩ := h.target htarget
    exact Run.gives_pure (registeredAt_redirectDeclaration hsite hannounced hnames)
  · exact Run.gives_map (gives_parameterTyping hR h) fun _ => registeredAt_typeDeclaration hsite

theorem gives_requestBodyDeclaration (hR : R.TakesEnums) (h : R.CoversIn walk value)
    (hsite : R.Declares site) :
    (walk.requestBodyDeclaration site location value).Gives (R.RegisteredAt site.reference) := by
  unfold Walk.requestBodyDeclaration
  split
  · next reference htarget =>
    obtain ⟨hannounced, hnames⟩ := h.target htarget
    exact Run.gives_pure (registeredAt_redirectDeclaration hsite hannounced hnames)
  · have hdeclare : ∀ typing, R.TypingRegistered typing →
        Run.Gives (pure (Walk.typeDeclaration site typing)) (R.RegisteredAt site.reference) :=
      fun typing htyping => Run.gives_pure (registeredAt_typeDeclaration hsite htyping)
    simp only
    split
    · next content hcontent =>
      exact Run.gives_bind (gives_contentTyping hR (covers_of_nonemptyEntries? h hcontent)) hdeclare
    · exact Run.gives_bind (Run.gives_pure (typingRegistered_ofType rfl)) hdeclare

/-! ### Headers -/

theorem gives_headerTyping (hR : R.TakesEnums) (h : R.CoversIn walk value) :
    (walk.headerTyping location hint value).Gives R.TypingRegistered := by
  unfold Walk.headerTyping
  split
  · exact Run.gives_throw
  · exact gives_ownSchemaTyping hR h

theorem gives_headerDeclaration (hR : R.TakesEnums) (h : R.CoversIn walk value)
    (hsite : R.Declares site) :
    (walk.headerDeclaration site value).Gives (R.RegisteredAt site.reference) := by
  unfold Walk.headerDeclaration
  split
  · next reference htarget =>
    obtain ⟨hannounced, hnames⟩ := h.target htarget
    exact Run.gives_pure (registeredAt_redirectDeclaration hsite hannounced hnames)
  · exact Run.gives_map (gives_headerTyping hR h) fun _ => registeredAt_typeDeclaration hsite

end Values

section Responses

variable {location : String} {value : Json} {reference : String}

/-- A fragment with the type of a typing may be added once the typing is merged in. -/
theorem RegisteredAt.push_typing {typing : Typing} {fragment : Fragment}
    (h : R.RegisteredAt reference set) (htyping : R.TypingRegistered typing)
    (hallowed : R.Allows fragment)
    (hmentions : fragment.mentions = (TypeExpr.unionOf typing.types).mentions) :
    R.RegisteredAt reference ((set.extend typing.emitted).push fragment) :=
  ⟨h.registered.push_typing htyping hallowed hmentions, (h.declared.extend _).push fragment⟩

theorem RegisteredAt.push {fragment : Fragment} (h : R.RegisteredAt reference set)
    (hallowed : R.Allows fragment) (hmentions : fragment.mentions = []) :
    R.RegisteredAt reference (set.push fragment) := by
  refine ⟨h.registered.push hallowed fun path hpath => ?_, h.declared.push fragment⟩
  rw [hmentions] at hpath
  exact absurd hpath List.not_mem_nil

theorem gives_headerMembers (hR : R.TakesEnums) {headers : List (String × Json)}
    (hcovers : ∀ header ∈ headers, R.CoversIn walk header.2)
    (hsite : ∀ name, R.members (site.child name name).reference) {anyRequired : Bool}
    (h : R.RegisteredAt reference set) :
    (walk.headerMembers site location headers (set, anyRequired)).Gives
      fun done => R.RegisteredAt reference done.1 := by
  induction headers generalizing set anyRequired with
  | nil => exact Run.gives_pure h
  | cons header rest ih =>
    obtain ⟨name, header⟩ := header
    have hheader : R.CoversIn walk header := hcovers _ List.mem_cons_self
    have hrest (set : FragmentSet) (anyRequired : Bool) (h : R.RegisteredAt reference set) :
        (walk.headerMembers site location rest (set, anyRequired)).Gives
          fun done => R.RegisteredAt reference done.1 :=
      ih (fun header hheader => hcovers header (List.mem_cons_of_mem _ hheader)) h
    rw [Walk.headerMembers]
    refine Run.gives_bind (Run.gives_liftExcept (P := fun _ => True) fun _ _ => trivial)
      fun required _ => ?_
    simp only
    split
    -- A header that is a reference object is announced under the reference that it names.
    · next target htarget =>
      obtain ⟨hannounced, hnames⟩ := hheader.target htarget
      refine Run.gives_bind (Run.gives_pure (P := R.RegisteredAt reference) ?_) fun set hset =>
        hrest set _ hset
      exact ⟨h.registered.push_redirect hannounced hnames (hsite name) rfl,
        (h.declared.push _).push _⟩
    · refine Run.gives_bind (gives_headerTyping hR hheader) fun typing htyping => ?_
      refine Run.gives_bind (Run.gives_pure (P := R.RegisteredAt reference) ?_) fun set hset =>
        hrest set _ hset
      exact h.push_typing htyping (hsite name) rfl

/-! ### Responses -/

theorem gives_responseBody (hR : R.TakesEnums) (hcovers : R.CoversIn walk value)
    (hsite : R.TakesResponse site) (h : R.RegisteredAt reference set) :
    (walk.responseBody site location value set).Gives (R.RegisteredAt reference) := by
  unfold Walk.responseBody
  split
  · next content _ hcontent =>
    refine Run.gives_bind (gives_contentTyping hR (covers_of_nonemptyEntries? hcovers hcontent))
      fun typing htyping => ?_
    exact Run.gives_pure (h.push_typing htyping hsite.body rfl)
  · exact Run.gives_pure h
  · exact Run.gives_pure (h.push hsite.body rfl)

theorem gives_responseHeaders (hR : R.TakesEnums) (hcovers : R.CoversIn walk value)
    (hsite : R.TakesResponse site) (h : R.RegisteredAt reference set) :
    (walk.responseHeaders site location value set).Gives (R.RegisteredAt reference) := by
  unfold Walk.responseHeaders
  split
  · next headers hheaders =>
    refine Run.gives_bind (gives_headerMembers hR (covers_of_nonemptyEntries? hcovers hheaders)
      hsite.header h) fun done hdone => ?_
    exact Run.gives_pure (hdone.push hsite.headers rfl)
  · exact Run.gives_pure h

/-- A response is declared under its own reference, its body and its headers as members below it. -/
theorem gives_responseDeclaration (hR : R.TakesEnums) (hcovers : R.CoversIn walk value)
    (hsite : R.TakesResponse site) :
    (walk.responseDeclaration site location value).Gives (R.RegisteredAt site.reference) := by
  unfold Walk.responseDeclaration
  split
  · next reference htarget =>
    obtain ⟨hannounced, hnames⟩ := hcovers.target htarget
    exact Run.gives_pure (registeredAt_redirectDeclaration hsite.declares hannounced hnames)
  · have hopened : R.RegisteredAt site.reference
        (({} : FragmentSet).push (site.declare .gathered)) :=
      ⟨registered_empty.push hsite.declares fun _ hpath => absurd hpath List.not_mem_nil,
        FragmentSet.declared_push_self rfl⟩
    exact Run.gives_bind (gives_responseBody hR hcovers hsite hopened)
      fun set hset => gives_responseHeaders hR hcovers hsite hset

end Responses

end Typewright.Register
