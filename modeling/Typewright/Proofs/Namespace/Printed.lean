import Mathlib.Data.List.Forall2
import Typewright.Proofs.Namespace.Written

/-!
# What the text of namespaces holds

The text of namespaces is a sequence of items: blocks that are opened and closed, and declarations
inside them.  What an item puts on its lines is said by the fragments alone (`Namespace.Shows`), and
the lines of the namespaces are those of their items (`Namespace.forall₂_shows_lines`).  Blocks are
closed in the right order and none is empty (`Namespace.nested_items`), none is opened twice
(`Namespace.nodup_openings_items`), and the declarations are those of the fragments, each inside the
blocks of its path (`Namespace.placements_items`, `Namespace.placed_build`).  So between fragments
and text nothing is lost (`Namespace.build_text_loses_nothing`).
-/

namespace Typewright

/-- Whether the fragment is written as a declaration. -/
def Fragment.isDeclaring : Fragment → Bool
  | statement .. => true
  | declaration .. => true
  | _ => false

namespace Namespace

/-! ### Items -/

/-- What is written, one after the other. -/
inductive Item where
  | opens (name : String)
  | declares (fragment : Fragment)
  | closes

namespace Item

/-- The blocks that are open after an item, from the outermost to the innermost. -/
def pathAfter (path : List String) : Item → List String
  | opens name => path ++ [name]
  | declares _ => path
  | closes => path.dropLast

/-- The fragment that is declared, with the path of the blocks that are open there. -/
def declared? (path : List String) : Item → Option (List String × Fragment)
  | declares fragment => some (path, fragment)
  | _ => none

/-- The path of the block that is opened. -/
def opened? (path : List String) : Item → Option (List String)
  | opens name => some (path ++ [name])
  | _ => none

end Item

/-- The items, each with the path of the blocks that are open there. -/
def located (path : List String) : List Item → List (List String × Item)
  | [] => []
  | item :: rest => (path, item) :: located (item.pathAfter path) rest

/-- The declarations, each with the path of the blocks that it is inside of. -/
def placements (path : List String) (items : List Item) : List (List String × Fragment) :=
  (located path items).filterMap fun place => place.2.declared? place.1

/-- The paths of the blocks that are opened. -/
def openings (path : List String) (items : List Item) : List (List String) :=
  (located path items).filterMap fun place => place.2.opened? place.1

/-- Every block is closed, those inside it before it, and holds a declaration. -/
inductive Nested : List Item → Prop where
  | nil : Nested []
  | declares {rest : List Item} (fragment : Fragment) (hrest : Nested rest) :
      Nested (.declares fragment :: rest)
  | block {body rest : List Item} {fragment : Fragment} (name : String) (hbody : Nested body)
      (hdeclares : .declares fragment ∈ body) (hrest : Nested rest) :
      Nested (.opens name :: body ++ .closes :: rest)

theorem Nested.append {first others : List Item} (h : Nested first) (hothers : Nested others) :
    Nested (first ++ others) := by
  induction h with
  | nil => exact hothers
  | declares fragment _ ih => exact .declares fragment ih
  | @block body rest fragment name hbody hdeclares _ _ ih =>
    have hblock := Nested.block name hbody hdeclares ih
    rwa [← List.cons_append, ← List.append_assoc] at hblock

/-- After nested items the same blocks are open as before them. -/
theorem Nested.located_append {first : List Item} (h : Nested first) (path : List String)
    (others : List Item) : located path (first ++ others) = located path first ++ located path others := by
  induction h generalizing path others with
  | nil => rfl
  | @declares rest fragment _ ih =>
    show (path, Item.declares fragment) :: located path (rest ++ others) = _
    rw [ih]
    rfl
  | @block body rest fragment name _ _ _ ihbody ihrest =>
    -- The body closes what it opens, so its end finds the path that its block was opened with.
    have hafter : Item.pathAfter (path ++ [name]) .closes = path := List.dropLast_concat
    show (path, .opens name) :: located (path ++ [name]) (body ++ .closes :: rest ++ others) =
      (path, .opens name) :: located (path ++ [name]) (body ++ .closes :: rest) ++ located path others
    rw [List.append_assoc, ihbody, ihbody]
    simp only [List.cons_append, located, hafter, ihrest, List.append_assoc]

theorem located_block {body : List Item} (h : Nested body) (path : List String) (name : String)
    (rest : List Item) :
    located path (.opens name :: body ++ .closes :: rest) =
      (path, .opens name) :: located (path ++ [name]) body ++
        (path ++ [name], .closes) :: located path rest := by
  have hafter : Item.pathAfter (path ++ [name]) .closes = path := List.dropLast_concat
  show (path, .opens name) :: located (path ++ [name]) (body ++ .closes :: rest) = _
  rw [h.located_append, located, hafter]
  rfl

/-! ### The items of namespaces -/

mutual

/-- The items of a namespace: its declarations, then the blocks inside it. -/
def items : Namespace → List Item
  | node _ members children =>
    (members.filter Fragment.isDeclaring).map .declares ++ childItems children

/-- The blocks of the namespaces that have declarations. -/
def childItems : List Namespace → List Item
  | [] => []
  | space :: rest =>
    (if hasDeclarations space then .opens space.name :: items space ++ [.closes] else [])
      ++ childItems rest

end

theorem nested_declares (fragments : List Fragment) : Nested (fragments.map .declares) := by
  induction fragments with
  | nil => exact .nil
  | cons fragment rest ih => exact .declares fragment ih

theorem isDeclaring_of_concrete {fragment : Fragment} (hassumed : fragment.isAssumed = false)
    (hmember : fragment.isMember = false) : fragment.isDeclaring = true := by
  cases fragment <;> simp_all [Fragment.isAssumed, Fragment.isMember, Fragment.isDeclaring]

mutual

/-- A namespace with declarations writes one. -/
theorem exists_declares_of_hasDeclarations (space : Namespace) (htidy : space.Tidy)
    (h : hasDeclarations space = true) : ∃ fragment, .declares fragment ∈ items space := by
  obtain ⟨name, members, children⟩ := space
  obtain ⟨hmembers, -, hchildren⟩ := htidy
  rw [hasDeclarations, Bool.or_eq_true] at h
  rcases h with h | h
  · obtain ⟨fragment, hfragment, hmember⟩ := List.any_eq_true.1 h
    have hdeclaring := isDeclaring_of_concrete (hmembers fragment hfragment) (by simpa using hmember)
    refine ⟨fragment, List.mem_append_left _ (List.mem_map_of_mem ?_)⟩
    exact List.mem_filter.2 ⟨hfragment, hdeclaring⟩
  · obtain ⟨fragment, hfragment⟩ := exists_declares_of_anyHasDeclarations children hchildren h
    exact ⟨fragment, List.mem_append_right _ hfragment⟩
termination_by structural space

theorem exists_declares_of_anyHasDeclarations (children : List Namespace) (htidy : AllTidy children)
    (h : anyHasDeclarations children = true) : ∃ fragment, .declares fragment ∈ childItems children := by
  cases children with
  | nil => exact absurd h (by simp [anyHasDeclarations])
  | cons space rest =>
    rw [anyHasDeclarations, Bool.or_eq_true] at h
    rcases h with h | h
    · obtain ⟨fragment, hfragment⟩ := exists_declares_of_hasDeclarations space htidy.1 h
      refine ⟨fragment, List.mem_append_left _ ?_⟩
      rw [if_pos h]
      exact List.mem_append_left _ (List.mem_cons_of_mem _ hfragment)
    · obtain ⟨fragment, hfragment⟩ := exists_declares_of_anyHasDeclarations rest htidy.2 h
      exact ⟨fragment, List.mem_append_right _ hfragment⟩
termination_by structural children

end

mutual

/-- The items of a tidy namespace are nested. -/
theorem nested_items (space : Namespace) (htidy : space.Tidy) : Nested (items space) := by
  obtain ⟨name, members, children⟩ := space
  rw [items]
  exact (nested_declares _).append (nested_childItems children htidy.2.2)
termination_by structural space

theorem nested_childItems (children : List Namespace) (htidy : AllTidy children) :
    Nested (childItems children) := by
  cases children with
  | nil =>
    rw [childItems]
    exact .nil
  | cons space rest =>
    rw [childItems]
    refine Nested.append ?_ (nested_childItems rest htidy.2)
    split
    · next h =>
      obtain ⟨fragment, hfragment⟩ := exists_declares_of_hasDeclarations space htidy.1 h
      exact .block space.name (nested_items space htidy.1) hfragment .nil
    · exact .nil
termination_by structural children

end

/-- The items of a list of children, with the paths of the blocks that they are inside of. -/
theorem located_childItems_cons {space : Namespace} (htidy : space.Tidy) (path : List String)
    (rest : List Namespace) :
    located path (childItems (space :: rest)) =
      (if hasDeclarations space then
        (path, .opens space.name) :: located (path ++ [space.name]) (items space) ++
          [(path ++ [space.name], .closes)]
      else []) ++ located path (childItems rest) := by
  rw [childItems]
  by_cases h : hasDeclarations space = true
  · rw [if_pos h, if_pos h]
    have hblock := located_block (nested_items space htidy) path space.name (childItems rest)
    rw [List.append_assoc]
    simp only [List.append_assoc, List.cons_append] at hblock ⊢
    exact hblock
  · rw [if_neg h, if_neg h, List.nil_append, List.nil_append]

theorem located_declares (path : List String) (fragments : List Fragment) (others : List Item) :
    located path (fragments.map .declares ++ others) =
      fragments.map (fun fragment => (path, .declares fragment)) ++ located path others := by
  induction fragments with
  | nil => rfl
  | cons fragment rest ih =>
    show (path, Item.declares fragment) :: located path (rest.map .declares ++ others) = _
    rw [ih]
    rfl

/-! ### Lines -/

/-- What stands on the line of an item, or on its lines if it is the declaration of an enum or of a
    gathered object type.  Only an outermost block may be declared and not exported. -/
inductive Shows (fragments : List Fragment) (exported : Bool) : List String × Item → String → Prop where
  | declared (name : String) (h : exported = false) :
      Shows fragments exported ([], .opens name) ("declare namespace " ++ name ++ " \x7b")
  | opens {path : List String} (name : String) (h : exported = true ∨ path ≠ []) :
      Shows fragments exported (path, .opens name)
        (margin path.length ++ "export namespace " ++ name ++ " \x7b")
  | declares (path : List String) {fragment : Fragment} {text : String}
      (h : Declares fragments path.length fragment text) :
      Shows fragments exported (path, .declares fragment) (margin path.length ++ text)
  | closes (path : List String) (name : String) :
      Shows fragments exported (path ++ [name], .closes) (margin path.length ++ "\x7d")

section Lines

variable {fragments : List Fragment}

theorem declarationText_isSome (children : List Namespace) (depth : Nat) (fragment : Fragment) :
    (declarationText children depth fragment).isSome = fragment.isDeclaring := by
  cases fragment <;> rfl

/-- The words and the name that open a block make up the line of the block. -/
theorem shows_opening (exported : Bool) (path : List String) (name : String) :
    Shows fragments exported (path, .opens name)
      (indentation path.length ++ opening exported path.length ++ " " ++ name ++ " \x7b") := by
  rw [indentation_eq_margin]
  cases path with
  | nil =>
    cases exported with
    | false => exact .declared name rfl
    | true => exact .opens name (.inl rfl)
  | cons segment rest =>
    have hblanks : margin (rest.length + 1) ++ "export namespace" ++ " " =
        margin (rest.length + 1) ++ "export namespace " := String.append_assoc
    show Shows fragments exported _
      (margin (rest.length + 1) ++ "export namespace" ++ " " ++ name ++ " \x7b")
    rw [hblanks]
    exact .opens name (.inr (List.cons_ne_nil segment rest))

/-- The declaring ones among some members of a namespace, one after the other. -/
theorem forall₂_shows_declarations (exported : Bool) {path : List String} {space : Namespace}
    (hfound : (build fragments).find? path = some space) {members : List Fragment}
    (hmembers : members ⊆ space.members) :
    List.Forall₂ (Shows fragments exported)
      ((members.filter Fragment.isDeclaring).map fun fragment => (path, Item.declares fragment))
      ((members.filterMap (declarationText space.children path.length)).map
        (indentation path.length ++ ·)) := by
  induction members with
  | nil => exact .nil
  | cons fragment rest ih =>
    obtain ⟨hfragment, hrest⟩ := List.cons_subset.1 hmembers
    have hsome := declarationText_isSome space.children path.length fragment
    -- A fragment that declares nothing has neither an item nor a line.
    cases htext : declarationText space.children path.length fragment with
    | none =>
      rw [htext] at hsome
      rw [List.filterMap_cons_none htext, List.filter_cons_of_neg (by simp [← hsome])]
      exact ih hrest
    | some text =>
      have hdeclares := declares_declarationText hfound hfragment htext
      rw [htext] at hsome
      rw [List.filterMap_cons_some htext, List.filter_cons_of_pos (by simp [← hsome]), List.map_cons,
        List.map_cons, indentation_eq_margin]
      exact .cons (.declares path hdeclares) (indentation_eq_margin _ ▸ ih hrest)

mutual

/-- The lines of a namespace are those of its items. -/
theorem forall₂_shows_lines (exported : Bool) (space : Namespace) {path : List String}
    (hfound : (build fragments).find? path = some space) :
    List.Forall₂ (Shows fragments exported) (located path (items space))
      (lines exported space path.length) := by
  obtain ⟨name, members, children⟩ := space
  have hdeclarations := forall₂_shows_declarations exported hfound (List.Subset.refl members)
  have hchildren := forall₂_shows_childLines exported children path fun inner hinner =>
    find?_build_child hfound hinner
  rw [items, located_declares, lines]
  exact List.rel_append hdeclarations hchildren
termination_by structural space

theorem forall₂_shows_childLines (exported : Bool) (children : List Namespace) (path : List String)
    (hfound : ∀ inner ∈ children, (build fragments).find? (path ++ [inner.name]) = some inner) :
    List.Forall₂ (Shows fragments exported) (located path (childItems children))
      (childLines exported children path.length) := by
  cases children with
  | nil => exact .nil
  | cons space rest =>
    have hspace := hfound space List.mem_cons_self
    have hrest := forall₂_shows_childLines exported rest path fun inner hinner =>
      hfound inner (List.mem_cons_of_mem _ hinner)
    -- Inside the block the path is longer by the name of the child.
    have hinside := forall₂_shows_lines exported space hspace
    rw [List.length_append, List.length_singleton] at hinside
    have hcloses : Shows fragments exported (path ++ [space.name], .closes)
        (indentation path.length ++ "\x7d") := by
      rw [indentation_eq_margin]
      exact .closes path space.name
    rw [located_childItems_cons ((tidy_build fragments).find? hspace), childLines]
    refine List.rel_append ?_ hrest
    split
    · exact List.rel_append (.cons (shows_opening exported path space.name) hinside)
        (.cons hcloses .nil)
    · exact .nil
termination_by structural children

end

end Lines

/-! ### Where fragments are declared -/

mutual

/-- The declaring fragments of a namespace and all inside it, each with the path to where it is. -/
def placed (path : List String) : Namespace → List (List String × Fragment)
  | node _ members children =>
    (members.filter Fragment.isDeclaring).map (path, ·) ++ placedIn path children

/-- The declaring fragments of all of the namespaces inside the one at a path. -/
def placedIn (path : List String) : List Namespace → List (List String × Fragment)
  | [] => []
  | space :: rest => placed (path ++ [space.name]) space ++ placedIn path rest

end

theorem filter_isDeclaring_eq_nil {members : List Fragment} (h : members.any (!·.isMember) = false) :
    members.filter Fragment.isDeclaring = [] := by
  refine List.filter_eq_nil_iff.2 fun fragment hfragment => ?_
  have hmember := List.any_eq_false.1 h fragment hfragment
  cases fragment <;> simp_all [Fragment.isMember, Fragment.isDeclaring]

mutual

/-- Nothing is lost with a namespace that is left out. -/
theorem placed_eq_nil (path : List String) (space : Namespace) (h : hasDeclarations space = false) :
    placed path space = [] := by
  obtain ⟨name, members, children⟩ := space
  rw [hasDeclarations, Bool.or_eq_false_iff] at h
  rw [placed, filter_isDeclaring_eq_nil h.1, placedIn_eq_nil path children h.2]
  rfl
termination_by structural space

theorem placedIn_eq_nil (path : List String) (children : List Namespace)
    (h : anyHasDeclarations children = false) : placedIn path children = [] := by
  cases children with
  | nil => rw [placedIn]
  | cons space rest =>
    rw [anyHasDeclarations, Bool.or_eq_false_iff] at h
    rw [placedIn, placed_eq_nil _ space h.1, placedIn_eq_nil path rest h.2]
    rfl
termination_by structural children

end

mutual

/-- The declarations among the items are those of the declaring fragments, in their places. -/
theorem placements_items (path : List String) (space : Namespace) (htidy : space.Tidy) :
    placements path (items space) = placed path space := by
  obtain ⟨name, members, children⟩ := space
  have hchildren := placements_childItems path children htidy.2.2
  unfold placements at hchildren ⊢
  rw [items, placed, located_declares, List.filterMap_append, hchildren, List.filterMap_map]
  congr 1
  exact congrFun List.filterMap_eq_map _
termination_by structural space

theorem placements_childItems (path : List String) (children : List Namespace)
    (htidy : AllTidy children) : placements path (childItems children) = placedIn path children := by
  cases children with
  | nil =>
    rw [childItems, placedIn]
    rfl
  | cons space rest =>
    have hrest := placements_childItems path rest htidy.2
    have hspace := placements_items (path ++ [space.name]) space htidy.1
    unfold placements at hrest hspace ⊢
    rw [located_childItems_cons htidy.1, List.filterMap_append, hrest, placedIn]
    congr 1
    by_cases h : hasDeclarations space = true
    · rw [if_pos h, List.filterMap_append, List.filterMap_cons_none rfl, hspace]
      exact List.append_nil _
    -- A block is left out only where nothing would be declared in it.
    · rw [if_neg h, placed_eq_nil _ space (Bool.not_eq_true _ ▸ h)]
      rfl
termination_by structural children

end

theorem placed_empty (path : List String) (name : String) : placed path (empty name) = [] := by
  simp [empty, placed, placedIn]

/-- A change of the child of a name that adds declarations to it adds them to the children. -/
theorem placedIn_updateChild {change : Namespace → Namespace} {path : List String} {name : String}
    {added : List (List String × Fragment)} (hchange : ∀ space, (change space).name = space.name)
    (hplaced : ∀ space, (placed (path ++ [name]) (change space)).Perm
      (placed (path ++ [name]) space ++ added)) (children : List Namespace) :
    (placedIn path (updateChild name change children)).Perm (placedIn path children ++ added) := by
  induction children with
  | nil =>
    have hname : (change (empty name)).name = name := hchange (empty name)
    have hempty := hplaced (empty name)
    rw [placed_empty] at hempty
    have hsingle : placedIn path [change (empty name)] = placed (path ++ [name]) (change (empty name)) := by
      rw [placedIn, hname]
      exact List.append_nil _
    rw [updateChild, hsingle]
    exact hempty
  | cons space rest ih =>
    rw [updateChild]
    split
    · next hname =>
      rw [placedIn, placedIn, hchange, hname]
      -- What is added to this child moves behind what stands in the others.
      calc placed (path ++ [name]) (change space) ++ placedIn path rest
        _ |>.Perm (placed (path ++ [name]) space ++ added ++ placedIn path rest) :=
            (hplaced space).append_right _
        _ |>.Perm (placed (path ++ [name]) space ++ placedIn path rest ++ added) := by
            rw [List.append_assoc, List.append_assoc]
            exact List.perm_append_comm.append_left _
    · rw [placedIn, placedIn, List.append_assoc]
      exact ih.append_left _

/-- Adding a fragment adds its declaration, at its path, and no other. -/
theorem placed_insert (fragment : Fragment) (place path : List String) (space : Namespace) :
    (placed path (insert fragment place space)).Perm
      (placed path space ++ if fragment.isDeclaring then [(path ++ place, fragment)] else []) := by
  induction place generalizing path space with
  | nil =>
    obtain ⟨name, members, children⟩ := space
    have hsingle : ([fragment].filter Fragment.isDeclaring).map (path, ·) =
        if fragment.isDeclaring then [(path ++ [], fragment)] else [] := by
      by_cases h : fragment.isDeclaring = true <;> simp [h]
    -- The new member comes before what is in the children, so the order is not kept.
    rw [insert, placed, placed, List.filter_append, List.map_append, hsingle, List.append_assoc,
      List.append_assoc]
    exact List.perm_append_comm.append_left _
  | cons key place ih =>
    obtain ⟨name, members, children⟩ := space
    rw [insert, placed, placed, List.append_assoc]
    refine List.Perm.append_left _ (placedIn_updateChild (name_insert fragment place) ?_ children)
    intro inner
    have hinner := ih (path ++ [key]) inner
    rwa [List.append_assoc, List.singleton_append] at hinner

theorem isDeclaring_of_isAssumed {fragment : Fragment} (h : fragment.isAssumed = true) :
    fragment.isDeclaring = false := by
  cases fragment <;> simp_all [Fragment.isAssumed, Fragment.isDeclaring]

/-- The namespaces of fragments hold every declaring fragment once, in the place of its path. -/
theorem placed_build (fragments : List Fragment) :
    (placed [] (build fragments)).Perm
      ((fragments.filter Fragment.isDeclaring).map fun fragment => (fragment.parentPath, fragment)) := by
  induction fragments using List.reverseRecOn with
  | nil =>
    rw [show build [] = empty "" from rfl, placed_empty]
    exact .nil
  | append_singleton fragments fragment ih =>
    rw [build_concat, List.filter_append, List.map_append]
    cases hassumed : fragment.isAssumed with
    | true =>
      rw [List.filter_cons_of_neg (by simp [isDeclaring_of_isAssumed hassumed])]
      simpa using ih
    | false =>
      -- Each fragment that comes in adds its own place to those so far.
      have hinsert := placed_insert fragment fragment.parentPath [] (build fragments)
      refine hinsert.trans (ih.append ?_)
      by_cases h : fragment.isDeclaring = true <;> simp [h]

/-! ### Which blocks are opened -/

theorem openings_declares (path : List String) (fragments : List Fragment) (others : List Item) :
    openings path (fragments.map .declares ++ others) = openings path others := by
  have hnone : (fragments.map fun fragment => (path, Item.declares fragment)).filterMap
      (fun place => place.2.opened? place.1) = [] := by
    rw [List.filterMap_map]
    exact List.filterMap_eq_nil_iff.2 fun _ _ => rfl
  rw [openings, located_declares, List.filterMap_append, hnone]
  rfl

theorem openings_childItems_cons {space : Namespace} (htidy : space.Tidy) (path : List String)
    (rest : List Namespace) :
    openings path (childItems (space :: rest)) =
      (if hasDeclarations space then
        (path ++ [space.name]) :: openings (path ++ [space.name]) (items space) else []) ++
        openings path (childItems rest) := by
  unfold openings
  rw [located_childItems_cons htidy, List.filterMap_append]
  congr 1
  split
  · rw [List.filterMap_append]
    exact List.append_nil _
  · rfl

/-- A child opens its own block, and further ones only inside it. -/
theorem prefix_of_mem_openings_child {space : Namespace} {path inner : List String}
    (hinside : ∀ inner ∈ openings (path ++ [space.name]) (items space),
      ∃ key ∈ space.children.map name, path ++ [space.name] ++ [key] <+: inner)
    (h : inner ∈ if hasDeclarations space then
      (path ++ [space.name]) :: openings (path ++ [space.name]) (items space) else []) :
    path ++ [space.name] <+: inner := by
  split at h
  · rcases List.mem_cons.1 h with rfl | h
    · exact List.prefix_refl _
    · obtain ⟨key, -, hkey⟩ := hinside inner h
      exact (List.prefix_append _ _).trans hkey
  · exact absurd h List.not_mem_nil

mutual

/-- Blocks are opened inside those that are open, under the names of the children. -/
theorem prefix_of_mem_openings_items {path inner : List String} (space : Namespace)
    (htidy : space.Tidy) (h : inner ∈ openings path (items space)) :
    ∃ key ∈ space.children.map name, path ++ [key] <+: inner := by
  obtain ⟨name, members, children⟩ := space
  rw [items, openings_declares] at h
  exact prefix_of_mem_openings_childItems children htidy.2.2 h
termination_by structural space

theorem prefix_of_mem_openings_childItems {path inner : List String} (children : List Namespace)
    (htidy : AllTidy children) (h : inner ∈ openings path (childItems children)) :
    ∃ key ∈ children.map name, path ++ [key] <+: inner := by
  cases children with
  | nil =>
    rw [childItems] at h
    exact absurd h List.not_mem_nil
  | cons space rest =>
    rw [openings_childItems_cons htidy.1, List.mem_append] at h
    rcases h with h | h
    · refine ⟨space.name, List.mem_cons_self, prefix_of_mem_openings_child ?_ h⟩
      exact fun inner hinner => prefix_of_mem_openings_items space htidy.1 hinner
    · obtain ⟨name, hmem, hname⟩ := prefix_of_mem_openings_childItems rest htidy.2 h
      exact ⟨name, List.mem_cons_of_mem _ hmem, hname⟩
termination_by structural children

end

mutual

/-- No block is opened twice. -/
theorem nodup_openings_items (path : List String) (space : Namespace) (htidy : space.Tidy) :
    (openings path (items space)).Nodup := by
  obtain ⟨name, members, children⟩ := space
  rw [items, openings_declares]
  exact nodup_openings_childItems path children htidy.2.1 htidy.2.2
termination_by structural space

theorem nodup_openings_childItems (path : List String) (children : List Namespace)
    (hnames : (children.map name).Nodup) (htidy : AllTidy children) :
    (openings path (childItems children)).Nodup := by
  cases children with
  | nil =>
    rw [childItems]
    exact List.nodup_nil
  | cons space rest =>
    obtain ⟨hnew, hrest⟩ := List.nodup_cons.1 hnames
    rw [openings_childItems_cons htidy.1]
    refine List.nodup_append'.2 ⟨?_, nodup_openings_childItems path rest hrest htidy.2, ?_⟩
    · split
      · refine List.nodup_cons.2 ⟨fun hmem => ?_, nodup_openings_items _ space htidy.1⟩
        -- What is opened inside a block has a longer path than the block.
        obtain ⟨name, -, hbelow⟩ := prefix_of_mem_openings_items space htidy.1 hmem
        have hlength := hbelow.length_le
        rw [List.length_append, List.length_singleton] at hlength
        omega
      · exact List.nodup_nil
    · intro inner hfirst hothers
      -- Two children on the way to the same block have the same name.
      have hspace : path ++ [space.name] <+: inner :=
        prefix_of_mem_openings_child
          (fun inner hinner => prefix_of_mem_openings_items space htidy.1 hinner) hfirst
      obtain ⟨name, hmem, hname⟩ := prefix_of_mem_openings_childItems rest htidy.2 hothers
      have heq : path ++ [space.name] = path ++ [name] :=
        (List.prefix_of_prefix_length_le hspace hname (by simp)).eq_of_length (by simp)
      have hsame : space.name = name := by simpa using heq
      exact hnew (hsame ▸ hmem)
termination_by structural children

end

/-! ### From fragments to text -/

/-- There is a namespace at exactly the paths that concrete fragments need, with the name that its
    path ends with and the fragments of its path in their order.  The text of these namespaces is
    that of nested blocks, none empty or opened twice, in which every declaring fragment is declared
    once, inside the blocks of its path.  A block is opened by a line with its name, and a fragment is
    declared by the text of what it stands for. -/
theorem build_text_loses_nothing (fragments : List Fragment) :
    (∀ path, ((build fragments).find? path).isSome ↔
      path = [] ∨ ∃ fragment ∈ fragments,
        fragment.isAssumed = false ∧ path <+: fragment.path.dropLast) ∧
    (∀ path space, (build fragments).find? path = some space →
      space.members = fragments.filter
        (fun fragment => !fragment.isAssumed && fragment.path.dropLast == path) ∧
      (space.children.map name).Nodup ∧ ∀ key, path.getLast? = some key → space.name = key) ∧
    ∀ exported, ∃ (printed : List Item) (lines : List String),
      text exported (build fragments) = "\n".intercalate lines ++ "\n" ∧
      List.Forall₂ (Shows fragments exported) (located [] printed) lines ∧
      Nested printed ∧
      (placements [] printed).Perm
        ((fragments.filter Fragment.isDeclaring).map fun fragment => (fragment.path.dropLast, fragment)) ∧
      (openings [] printed).Nodup := by
  have htidy := tidy_build fragments
  refine ⟨fun path => ?_, fun path space hfound => ⟨?_, ?_, fun key hkey => ?_⟩, fun exported => ?_⟩
  · rw [find?_build_isSome]
    exact isNeeded_iff
  · exact members_of_find?_build hfound
  · obtain ⟨name, members, children⟩ := space
    exact (htidy.find? hfound).2.1
  · obtain ⟨outer, rfl⟩ := List.getLast?_eq_some_iff.1 hkey
    exact name_of_find? hfound
  · have hroot : (build fragments).find? [] = some (build fragments) := rfl
    refine ⟨items (build fragments), _, rfl, forall₂_shows_lines exported _ hroot,
      nested_items _ htidy, ?_, nodup_openings_items [] _ htidy⟩
    rw [placements_items [] _ htidy]
    exact placed_build fragments

end Namespace

end Typewright
