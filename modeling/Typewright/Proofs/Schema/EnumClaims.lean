import Typewright.Proofs.Schema.RealEnums

/-!
# Names claimed one after the other

A search for a name passes over names that stand for other values.  A name keeps its values, so a
later search for the same values passes over the same names and ends where the earlier one did,
whatever was claimed in between (`EnumNames.claim_of_extends`); this holds although the numbered names
of one base may be those of another.  From it come the laws of a whole sequence of claims
(`EnumNames.Stable`), and that under one reference one enum is declared (`Schema.enum_names_stable`).
-/

namespace Typewright

namespace EnumNames

open Naming (numbered SearchEndsAt)

variable {names names' : EnumNames} {base name : String} {values : List String}

/-! ### One claim -/

theorem accepts_eq_false_iff :
    names.accepts values name = false ↔ ∃ others, names.lookup name = some others ∧ others ≠ values := by
  unfold accepts
  cases names.lookup name <;> simp

theorem accepts_of_lookup (h : names.lookup name = some values) : names.accepts values name = true := by
  unfold accepts
  rw [h]
  exact beq_self_eq_true values

/-- A name that stands for other values is not accepted later on either. -/
theorem Extends.accepts_eq_false (h : names.Extends names') (hname : names.accepts values name = false) :
    names'.accepts values name = false := by
  obtain ⟨others, hothers, hne⟩ := accepts_eq_false_iff.1 hname
  exact accepts_eq_false_iff.2 ⟨others, h _ _ hothers, hne⟩

theorem snd_claim_of_lookup (h : names.lookup (names.claim base values).1 = some values) :
    (names.claim base values).2 = names := by
  rcases claim_cases names base values with ⟨-, hnames⟩ | ⟨hnone, -⟩
  · exact hnames
  · exact absurd (hnone.symm.trans h) (by simp)

/-- Claimed once more, a base and values are given the same name, whatever was claimed in between, and
    nothing is added. -/
theorem claim_of_extends (h : (names.claim base values).2.Extends names') :
    names'.claim base values = ((names.claim base values).1, names') := by
  obtain ⟨n, -, hname, hends⟩ := exists_searchEndsAt names base values
  obtain ⟨n', -, hname', hends'⟩ := exists_searchEndsAt names' base values
  have hextends := (extends_claim names base values).trans h
  have hlookup := h _ _ (lookup_claim names base values)
  -- The names that the earlier search passed over are filled for good.
  have hsame : SearchEndsAt (names'.accepts values) base n :=
    ⟨accepts_of_lookup (hname ▸ hlookup), fun m hm => hextends.accepts_eq_false (hends.passed m hm)⟩
  have hfst : (names'.claim base values).1 = (names.claim base values).1 := by
    rw [hname', hname, hends'.unique hsame]
  exact Prod.ext hfst (snd_claim_of_lookup (by rw [hfst, hlookup]))

theorem length_claim_le (names : EnumNames) (base : String) (values : List String) :
    (names.claim base values).2.length ≤ names.length + 1 := by
  rcases claim_cases names base values with ⟨-, hnames⟩ | ⟨-, hnames⟩
  · rw [hnames]
    exact Nat.le_succ _
  · rw [hnames, List.length_cons]

/-! ### One claim after the other -/

/-- What a name is claimed for: the name that is wished for, and the values. -/
structure Claim where
  base : String
  values : List String

/-- The names after the claims, made one after the other. -/
def claimAll (names : EnumNames) (claims : List Claim) : EnumNames :=
  claims.foldl (fun names claim => (names.claim claim.base claim.values).2) names

/-- The claims, made one after the other, each with the name that it is given. -/
def grants (names : EnumNames) : List Claim → List (Claim × String)
  | [] => []
  | claim :: rest =>
    let (name, names') := names.claim claim.base claim.values
    (claim, name) :: grants names' rest

variable {claim : Claim} {claims earlier later : List Claim}

theorem claimAll_cons (names : EnumNames) (claim : Claim) (claims : List Claim) :
    claimAll names (claim :: claims) = claimAll (names.claim claim.base claim.values).2 claims := rfl

theorem claimAll_append (names : EnumNames) (earlier later : List Claim) :
    claimAll names (earlier ++ later) = claimAll (claimAll names earlier) later :=
  List.foldl_append

theorem grants_cons (names : EnumNames) (claim : Claim) (claims : List Claim) :
    grants names (claim :: claims) =
      (claim, (names.claim claim.base claim.values).1) ::
        grants (names.claim claim.base claim.values).2 claims := rfl

theorem grants_append (names : EnumNames) (earlier later : List Claim) :
    grants names (earlier ++ later) = grants names earlier ++ grants (claimAll names earlier) later := by
  induction earlier generalizing names with
  | nil => rfl
  | cons claim earlier ih =>
    rw [List.cons_append, grants_cons, grants_cons, ih, List.cons_append, claimAll_cons]

theorem map_fst_grants (names : EnumNames) (claims : List Claim) :
    (grants names claims).map Prod.fst = claims := by
  induction claims generalizing names with
  | nil => rfl
  | cons claim claims ih => rw [grants_cons, List.map_cons, ih]

/-- A claim is given its name under the names that the claims before it have left. -/
theorem getElem?_grants (names : EnumNames) (earlier : List Claim) (claim : Claim) (later : List Claim) :
    (grants names (earlier ++ claim :: later))[earlier.length]? =
      some (claim, ((claimAll names earlier).claim claim.base claim.values).1) := by
  have hlength : (grants names earlier).length = earlier.length := by
    rw [← List.length_map Prod.fst, map_fst_grants]
  rw [grants_append, ← hlength, List.getElem?_append_right (Nat.le_refl _), Nat.sub_self, grants_cons,
    List.getElem?_cons_zero]

theorem length_claimAll_le (names : EnumNames) (claims : List Claim) :
    (claimAll names claims).length ≤ names.length + claims.length := by
  induction claims generalizing names with
  | nil => exact Nat.le_refl _
  | cons claim claims ih =>
    have hclaim := length_claim_le names claim.base claim.values
    have hrest := ih (names.claim claim.base claim.values).2
    rw [claimAll_cons, List.length_cons]
    omega

theorem extends_claimAll (names : EnumNames) (claims : List Claim) :
    names.Extends (claimAll names claims) := by
  induction claims generalizing names with
  | nil => exact .refl names
  | cons claim claims ih => exact (extends_claim names _ _).trans (ih _)

/-- In the end a granted name stands for the values that it was claimed for, and it is what they would
    be given once more. -/
theorem of_mem_grants (h : (claim, name) ∈ grants names claims) :
    (claimAll names claims).lookup name = some claim.values ∧
      ((claimAll names claims).claim claim.base claim.values).1 = name := by
  induction claims generalizing names with
  | nil => exact absurd h List.not_mem_nil
  | cons first claims ih =>
    rw [grants_cons] at h
    rw [claimAll_cons]
    rcases List.mem_cons.1 h with h | h
    · obtain ⟨rfl, rfl⟩ := Prod.mk.inj h
      have hextends := extends_claimAll (names.claim claim.base claim.values).2 claims
      exact ⟨hextends _ _ (lookup_claim names _ _), by rw [claim_of_extends hextends]⟩
    · exact ih h

/-- The laws of claims that are made one after the other, the first one under no names. -/
structure Stable (claims : List Claim) : Prop where
  /-- Every search ends, at the first name that is free or stands for the values. -/
  ends : ∀ earlier claim later, claims = earlier ++ claim :: later →
    ∃ n ≤ earlier.length,
      (grants [] claims)[earlier.length]? = some (claim, numbered claim.base n) ∧
        SearchEndsAt ((claimAll [] earlier).accepts claim.values) claim.base n
  /-- One name is given for one list of values only. -/
  values_eq : ∀ first ∈ grants [] claims, ∀ second ∈ grants [] claims, first.2 = second.2 →
    first.1.values = second.1.values
  /-- For one base and one list of values one name is given. -/
  name_eq : ∀ first ∈ grants [] claims, ∀ second ∈ grants [] claims, first.1 = second.1 →
    first.2 = second.2
  /-- What a name stands for never changes. -/
  keeps : ∀ earlier later, claims = earlier ++ later →
    (claimAll [] earlier).Extends (claimAll [] claims)

theorem stable (claims : List Claim) : Stable claims where
  ends := by
    rintro earlier claim later rfl
    -- The names so far are at most as many as the claims before this one.
    obtain ⟨n, hn, hname, hends⟩ :=
      exists_searchEndsAt (claimAll [] earlier) claim.base claim.values
    have hlength : (claimAll [] earlier).length ≤ earlier.length := by
      simpa using length_claimAll_le [] earlier
    refine ⟨n, hn.trans hlength, ?_, hends⟩
    rw [getElem?_grants, hname]
  values_eq := by
    rintro ⟨claim, name⟩ hfirst ⟨claim', name'⟩ hsecond hname
    obtain rfl : name = name' := hname
    exact Option.some.inj ((of_mem_grants hfirst).1.symm.trans (of_mem_grants hsecond).1)
  name_eq := by
    rintro ⟨claim, name⟩ hfirst ⟨claim', name'⟩ hsecond hclaim
    obtain rfl : claim = claim' := hclaim
    exact (of_mem_grants hfirst).2.symm.trans (of_mem_grants hsecond).2
  keeps := by
    rintro earlier later rfl
    rw [claimAll_append]
    exact extends_claimAll _ later

end EnumNames

namespace Schema

variable {final names : EnumNames} {results : List Typing}

/-! ### Declared enums -/

/-- Whatever concrete fragments of one reference come with the typings are one fragment. -/
def DeclareAlike (results : List Typing) : Prop :=
  ∀ first ∈ results, ∀ second ∈ results,
    ∀ fragment ∈ first.emitted.fragments, ∀ other ∈ second.emitted.fragments,
      fragment.isAssumed = false → other.isAssumed = false → fragment.reference = other.reference →
        fragment = other

/-- Typings that bring enums only declare one enum under one reference. -/
theorem declareAlike_of_bringsEnums (h : ∀ typing ∈ results, typing.BringsEnums final) :
    DeclareAlike results := by
  intro first hfirst second hsecond fragment hfragment other hother hconcrete hconcrete' href
  have henum := ((h first hfirst).concrete fragment hfragment hconcrete).resolve_left id
  have henum' := ((h second hsecond).concrete other hother hconcrete').resolve_left id
  exact henum.eq_of_reference_eq henum' href

/-- An enumeration that is to be declared as an enum. -/
structure EnumRequest where
  context : Context
  facts : Facts
  values : List String

/-- The run that declares the enum. -/
def EnumRequest.run (request : EnumRequest) : Run Typing :=
  realEnumTyping request.context request.facts request.values

/-- What a name is claimed for. -/
def EnumRequest.claim (request : EnumRequest) : EnumNames.Claim :=
  { base := Naming.identifier (enumWish request.context request.facts), values := request.values }

/-- Declaring enums one after the other claims their names one after the other, and never fails. -/
theorem exists_yields_mapM_enumRequest (requests : List EnumRequest) (names : EnumNames) :
    ∃ typings, (requests.mapM EnumRequest.run).Yields names typings
      (names.claimAll (requests.map EnumRequest.claim)) := by
  induction requests generalizing names with
  | nil => exact ⟨[], rfl⟩
  | cons request requests ih =>
    have hfirst : request.run.Yields names _ (names.claim request.claim.base request.claim.values).2 :=
      yields_realEnumTyping_iff.2 ⟨rfl, rfl⟩
    obtain ⟨typings, hrest⟩ := ih (names.claim request.claim.base request.claim.values).2
    rw [List.mapM_cons]
    exact ⟨_, Run.yields_bind_iff.2 ⟨_, _, hfirst, Run.yields_bind_iff.2
      ⟨typings, _, hrest, Run.yields_pure_iff.2 ⟨rfl, rfl⟩⟩⟩⟩

/-- What comes of declaring enums one after the other declares one enum under one reference. -/
theorem declareAlike_of_yields {requests : List EnumRequest} {names' : EnumNames}
    (h : (requests.mapM EnumRequest.run).Yields names results names') : DeclareAlike results := by
  have hgives : Run.GivesWithin names' (requests.mapM EnumRequest.run)
      fun typings => ∀ typing ∈ typings, typing.BringsEnums names' :=
    Run.givesWithin_mapM fun request _ =>
      (enumRules names' request.context.baseName
        request.context.options.tupleLimit).givesWithin_realEnumTyping request.facts request.values
  exact declareAlike_of_bringsEnums ((hgives names results names' h).2 (.refl names'))

/-- Schemas that are typed one after the other declare one enum under one reference, even if some of
    them fail. -/
theorem declareAlike_typings (requests : List Request) (names : EnumNames) :
    DeclareAlike ((typings true names requests).filterMap Except.toOption) := by
  have hbrings : ∀ typing ∈ (typings true names requests).filterMap Except.toOption,
      typing.BringsEnums (namesAfter true names requests) := by
    intro typing htyping
    obtain ⟨result, hresult, hok⟩ := List.mem_filterMap.1 htyping
    cases result with
    | error failure => exact absurd hok (by simp [Except.toOption])
    | ok value =>
      obtain rfl : value = typing := Option.some.inj hok
      exact bringsEnums_of_mem_typings (.refl _) hresult
  exact declareAlike_of_bringsEnums hbrings

/-- Over any sequence of claims the names of enums are stable, and one name stands for one list of
    values.  So enums that are declared one after the other, and schemas that are typed one after the
    other, have one enum under one reference. -/
theorem enum_names_stable :
    (∀ claims : List EnumNames.Claim, EnumNames.Stable claims) ∧
    (∀ requests : List EnumRequest, ∃ typings,
      (requests.mapM EnumRequest.run).Yields [] typings
        (EnumNames.claimAll [] (requests.map EnumRequest.claim)) ∧ DeclareAlike typings) ∧
    ∀ requests : List Request,
      DeclareAlike ((typings true [] requests).filterMap Except.toOption) := by
  refine ⟨EnumNames.stable, fun requests => ?_, fun requests => declareAlike_typings requests []⟩
  obtain ⟨typings, hyields⟩ := exists_yields_mapM_enumRequest requests []
  exact ⟨typings, hyields, declareAlike_of_yields hyields⟩

end Schema

end Typewright
