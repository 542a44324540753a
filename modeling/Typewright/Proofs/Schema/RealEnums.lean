import Typewright.Proofs.Schema.Mirrored
import Typewright.Proofs.Schema.Owned

/-!
# Enum declarations keep the meaning of schemas

Schemas are typed one after the other, each from the names that were claimed before it.  An enum is
then declared alike wherever it is declared (`Schema.enum_unique`), and where its reference stands for
its values, every schema denotes what it denotes without enum declarations
(`Schema.typings_keep_meaning`).
-/

namespace Typewright

/-- The path and the enum that the fragment declares. -/
def Fragment.enum? : Fragment → Option (List String × EnumDeclaration)
  | .declaration _ path (.enum enum) => some (path, enum)
  | _ => none

namespace Schema

/-! ### One schema after the other -/

/-- A schema that is to be typed: where it stands, and the type that is handed down to it. -/
structure Request where
  context : Context
  parent : Option Json
  schema : Json

/-- The run that types the schema of a request, with enum declarations or without. -/
def Request.run (request : Request) (realEnums : Bool) : Run Typing :=
  (ofJson request.schema).typing (request.context.withRealEnums realEnums) request.parent

/-- What comes of the requests one after the other; names that a request claims stay claimed, also if
    it fails. -/
def typings (realEnums : Bool) (names : EnumNames) : List Request → List (Except Failure Typing)
  | [] => []
  | request :: rest =>
    let (result, names') := (request.run realEnums).outcome names
    result :: typings realEnums names' rest

/-- The names that are claimed after the requests. -/
def namesAfter (realEnums : Bool) (names : EnumNames) (requests : List Request) : EnumNames :=
  requests.foldl (fun names request => ((request.run realEnums).outcome names).2) names

/-- The enums that are declared, each with the path that it is declared under. -/
def enumsOf (results : List (Except Failure Typing)) : List (List String × EnumDeclaration) :=
  results.flatMap fun
    | .ok typing => typing.emitted.fragments.filterMap Fragment.enum?
    | .error _ => []

/-- In the namespace of enums, a path stands for the values of the enum that is declared under it; any
    other path stands for what it did. -/
def withEnums (enums : List (List String × EnumDeclaration)) (G : List String → Json → Prop)
    (path : List String) (value : Json) : Prop :=
  if path.head? = some EnumDeclaration.space then ∃ enum, (path, enum) ∈ enums ∧ enum.Holds value
  else G path value

variable {G : List String → Json → Prop} {final names names₀ : EnumNames} {requests : List Request}

theorem withEnums_pathOf_iff {enums : List (List String × EnumDeclaration)} {name : String} {value : Json} :
    withEnums enums G (EnumDeclaration.pathOf name) value ↔
      ∃ enum, (EnumDeclaration.pathOf name, enum) ∈ enums ∧ enum.Holds value := by
  have hspace : (EnumDeclaration.pathOf name).head? = some EnumDeclaration.space := rfl
  rw [withEnums, if_pos hspace]

theorem extends_namesAfter (names : EnumNames) (requests : List Request) :
    names.Extends (namesAfter true names requests) := by
  induction requests generalizing names with
  | nil => exact .refl names
  | cons request rest ih =>
    have hfirst := (mirrors_typing (G := fun _ _ => True) request.schema request.context
      request.parent).claims names
    exact hfirst.trans (ih _)

/-- Whatever is declared along with a typing is an enum, by the names that are claimed in the end. -/
theorem bringsEnums_of_mem_typings (hfinal : (namesAfter true names requests).Extends final)
    {typing : Typing} (h : .ok typing ∈ typings true names requests) : typing.BringsEnums final := by
  induction requests generalizing names with
  | nil => exact absurd h List.not_mem_nil
  | cons request rest ih =>
    rcases List.mem_cons.1 h with h | h
    · have hyields : (request.run true).Yields names typing ((request.run true).outcome names).2 :=
        Prod.ext h.symm rfl
      have hgives : Run.GivesWithin final (request.run true) (Typing.BringsEnums final) :=
        givesWithin_typing request.schema _ request.parent
      exact (hgives names typing _ hyields).2 ((extends_namesAfter _ rest).trans hfinal)
    · exact ih hfinal h

/-- One after the other, the requests fail alike with enum declarations and without, or their typings
    agree by the names that are claimed in the end. -/
theorem corresponds_typings (hfinal : (namesAfter true names requests).Extends final) :
    List.Forall₂ (Run.Corresponds (Typing.Agree G final)) (typings true names requests)
      (typings false names₀ requests) := by
  induction requests generalizing names names₀ with
  | nil => exact .nil
  | cons request rest ih =>
    have hmirrors := mirrors_typing (G := G) request.schema request.context request.parent
    refine .cons ?_ (ih hfinal)
    refine (hmirrors.corresponds names names₀).mono fun a b _ _ hab => ?_
    exact hab final ((extends_namesAfter _ rest).trans hfinal)

/-! ### Declared enums -/

/-- A declared enum is declared in the namespace of enums, for the values that its name stands for. -/
theorem exists_of_mem_enumsOf (hfinal : (namesAfter true names requests).Extends final)
    {path : List String} {enum : EnumDeclaration}
    (h : (path, enum) ∈ enumsOf (typings true names requests)) :
    ∃ name values, final.lookup name = some values ∧ path = EnumDeclaration.pathOf name ∧
      enum = EnumDeclaration.ofValues name values := by
  obtain ⟨result, hresult, hmem⟩ := List.mem_flatMap.1 h
  cases result with
  | error failure => exact absurd hmem List.not_mem_nil
  | ok typing =>
    obtain ⟨fragment, hfragment, henum⟩ := List.mem_filterMap.1 hmem
    have hconcrete : fragment.isAssumed = false := by
      cases fragment <;> simp_all [Fragment.enum?, Fragment.isAssumed]
    -- A concrete fragment of a typing is an enum under a name that it claimed.
    have howned := bringsEnums_of_mem_typings hfinal hresult
    obtain ⟨wish, n, values, hlookup, rfl⟩ :=
      (howned.concrete fragment hfragment hconcrete).resolve_left id
    have hpair : (EnumDeclaration.pathOf (Naming.numbered (Naming.identifier wish) n),
        EnumDeclaration.ofValues (Naming.numbered (Naming.identifier wish) n) values) = (path, enum) :=
      Option.some.inj henum
    obtain ⟨rfl, rfl⟩ := Prod.mk.inj hpair
    exact ⟨_, values, hlookup, rfl, rfl⟩

/-- Whatever is declared under one path is one enum. -/
theorem enum_unique (hfinal : (namesAfter true names requests).Extends final) {path : List String}
    {first second : EnumDeclaration} (hfirst : (path, first) ∈ enumsOf (typings true names requests))
    (hsecond : (path, second) ∈ enumsOf (typings true names requests)) : first = second := by
  obtain ⟨name, values, hlookup, rfl, rfl⟩ := exists_of_mem_enumsOf hfinal hfirst
  obtain ⟨name', values', hlookup', hpath, rfl⟩ := exists_of_mem_enumsOf hfinal hsecond
  obtain rfl : name = name' := by simpa [EnumDeclaration.pathOf] using hpath
  rw [hlookup] at hlookup'
  rw [Option.some.inj hlookup']

/-- In the environment of all declared enums, those that one typing declares are read as what they
    are. -/
theorem readAs_withEnums (hfinal : (namesAfter true names requests).Extends final) {typing : Typing}
    (htyping : .ok typing ∈ typings true names requests) :
    typing.emitted.ReadAs (withEnums (enumsOf (typings true names requests)) G) final := by
  intro fragment henum hdeclared
  -- The fragment that is stored under the reference of the enum is the same enum.
  obtain ⟨other, hother, href, hconcrete⟩ := hdeclared
  have howned := bringsEnums_of_mem_typings hfinal htyping
  have hotherEnum := (howned.concrete other hother hconcrete).resolve_left id
  obtain rfl := hotherEnum.eq_of_reference_eq henum href
  obtain ⟨wish, n, values, -, hfragment⟩ := henum
  have hmem : (EnumDeclaration.pathOf (Naming.numbered (Naming.identifier wish) n),
      EnumDeclaration.ofValues (Naming.numbered (Naming.identifier wish) n) values) ∈
        enumsOf (typings true names requests) := by
    refine List.mem_flatMap.2 ⟨_, htyping, List.mem_filterMap.2 ⟨other, hother, ?_⟩⟩
    rw [hfragment]
    rfl
  rw [hfragment]
  intro value
  show withEnums _ G (EnumDeclaration.pathOf _) value ↔ _
  rw [withEnums_pathOf_iff]
  constructor
  · rintro ⟨enum, hdeclared, hholds⟩
    rwa [enum_unique hfinal hdeclared hmem] at hholds
  · intro hholds
    exact ⟨_, hmem, hholds⟩

/-! ### What schemas denote -/

/-- Schemas that are typed one after the other fail alike with enum declarations and without, or they
    denote the same values, whatever other paths stand for.  An enum is declared under the path of its
    name, and under one path there is one enum. -/
theorem typings_keep_meaning (requests : List Request) (names names₀ : EnumNames) :
    (∀ path first second, (path, first) ∈ enumsOf (typings true names requests) →
      (path, second) ∈ enumsOf (typings true names requests) → first = second) ∧
    (∀ path enum, (path, enum) ∈ enumsOf (typings true names requests) →
      path = EnumDeclaration.pathOf enum.name) ∧
    ∀ G : List String → Json → Prop,
      List.Forall₂
        (Run.Corresponds fun first second => ∀ value,
          TypeExpr.Admits (withEnums (enumsOf (typings true names requests)) G) first.unionType value ↔
            TypeExpr.Admits (withEnums (enumsOf (typings true names requests)) G) second.unionType value)
        (typings true names requests) (typings false names₀ requests) := by
  have hfinal := EnumNames.Extends.refl (namesAfter true names requests)
  refine ⟨fun path first second => enum_unique hfinal, fun path enum henum => ?_, fun G => ?_⟩
  · obtain ⟨name, values, -, rfl, rfl⟩ := exists_of_mem_enumsOf hfinal henum
    rfl
  · have hagree : List.Forall₂ (Run.Corresponds (Typing.Agree
        (withEnums (enumsOf (typings true names requests)) G) (namesAfter true names requests)))
        (typings true names requests) (typings false names₀ requests) :=
      corresponds_typings hfinal
    -- A result is related as one of the requests, since its enums are read among those of all.
    have hmem := (List.forall₂_and_left (p := (· ∈ typings true names requests)) _ _).2
      ⟨fun _ h => h, hagree⟩
    refine hmem.imp fun result result₀ ⟨hresult, hcorresponds⟩ => ?_
    refine hcorresponds.mono fun first second hfirst _ h => ?_
    exact (h (readAs_withEnums hfinal (hfirst ▸ hresult))).unionType

end Schema

end Typewright
