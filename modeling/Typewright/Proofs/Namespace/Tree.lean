import Mathlib.Data.List.Induction
import Mathlib.Data.List.Infix
import Mathlib.Data.List.Nodup
import Typewright.Namespace.Basic

/-!
# What the namespaces of fragments hold

Adding a fragment changes the namespace at its path and makes those on the way
(`Namespace.membersAt_insert`), so the namespaces of a list of fragments hold each concrete one
exactly where its path says (`Namespace.membersAt_build`).  Children have distinct names
(`Namespace.Tidy`), hence a path of names leads to one namespace.
-/

namespace Typewright

/-- The path of the namespace that a fragment is a member of. -/
def Fragment.parentPath (fragment : Fragment) : List String :=
  fragment.path.dropLast

namespace Namespace

/-! ### Children -/

theorem child?_node (name : String) (members : List Fragment) (children : List Namespace)
    (key : String) : (node name members children).child? key = children.find? (·.name == key) := rfl

theorem name_of_child? {space inner : Namespace} {key : String} (h : space.child? key = some inner) :
    inner.name = key := by
  unfold child? at h
  have hname := List.find?_some h
  exact beq_iff_eq.1 hname

theorem name_insert (fragment : Fragment) (path : List String) (space : Namespace) :
    (insert fragment path space).name = space.name := by
  obtain ⟨name, members, children⟩ := space
  cases path <;> rfl

/-- The child of the name is changed, or made and changed; the others stay. -/
theorem find?_updateChild {change : Namespace → Namespace} (hchange : ∀ space, (change space).name = space.name)
    (name : String) (children : List Namespace) (key : String) :
    (updateChild name change children).find? (·.name == key) =
      if key = name then some (change ((children.find? (·.name == name)).getD (empty name)))
      else children.find? (·.name == key) := by
  induction children with
  | nil =>
    have hempty : (change (empty name)).name = name := hchange (empty name)
    by_cases hkey : key = name
    · simp [updateChild, hempty, hkey]
    · simp [updateChild, hempty, hkey, Ne.symm hkey]
  | cons space rest ih =>
    unfold updateChild
    -- Either this child is the one that changes, or a child with its own name stays in front.
    by_cases hname : space.name = name
    · have hchanged : (change space).name = name := (hchange space).trans hname
      rw [if_pos hname]
      by_cases hkey : key = name
      · simp [hchanged, hname, hkey]
      · simp [hchanged, hname, hkey, Ne.symm hkey]
    · rw [if_neg hname]
      by_cases hspace : space.name = key
      · have hkey : key ≠ name := fun h => hname (hspace.trans h)
        simp [hspace, hkey]
      · simp [hspace, hname, ih]

/-! ### Members by path -/

/-- The members of the namespace at a path, if there is one. -/
def membersAt (space : Namespace) (path : List String) : Option (List Fragment) :=
  (space.find? path).map members

theorem membersAt_nil (space : Namespace) : space.membersAt [] = some space.members := rfl

theorem membersAt_cons (space : Namespace) (segment : String) (rest : List String) :
    space.membersAt (segment :: rest) = (space.child? segment).bind (membersAt · rest) := by
  unfold membersAt
  rw [find?]
  cases space.child? segment <;> rfl

theorem membersAt_empty (name : String) (path : List String) :
    (empty name).membersAt path = if path = [] then some [] else none := by
  cases path <;> rfl

/-- A fragment is added at its path; all namespaces on the way are there afterwards. -/
theorem membersAt_insert (fragment : Fragment) (place : List String) (space : Namespace)
    (path : List String) :
    (insert fragment place space).membersAt path =
      if path.isPrefixOf place then
        some ((space.membersAt path).getD [] ++ if path = place then [fragment] else [])
      else space.membersAt path := by
  induction place generalizing space path with
  | nil =>
    obtain ⟨name, members, children⟩ := space
    cases path with
    | nil => simp [insert, membersAt_nil, Namespace.members]
    | cons segment rest => simp [insert, membersAt_cons, child?_node]
  | cons key place ih =>
    obtain ⟨name, members, children⟩ := space
    cases path with
    | nil => simp [insert, membersAt_nil, Namespace.members]
    | cons segment rest =>
      have hchild : (insert fragment (key :: place) (node name members children)).child? segment =
          if segment = key then
            some (insert fragment place ((children.find? (·.name == key)).getD (empty key)))
          else children.find? (·.name == segment) :=
        find?_updateChild (name_insert fragment place) key children segment
      rw [membersAt_cons, hchild, membersAt_cons, child?_node, List.isPrefixOf]
      -- The place and the path go on together, or they part at the first segment.
      by_cases hkey : segment = key
      · subst hkey
        simp only [if_true, true_and, List.cons.injEq, Option.bind_some, ih]
        -- A namespace that is made on the way starts out empty.
        cases hfound : children.find? (·.name == segment) with
        | some inner => simp
        | none =>
          rw [Option.getD_none, Option.bind_none, membersAt_empty]
          by_cases hrest : rest = []
          · simp [hrest]
          · simp [hrest]
      · simp [hkey]

theorem build_concat (fragments : List Fragment) (fragment : Fragment) :
    build (fragments ++ [fragment]) =
      if fragment.isAssumed then build fragments
      else insert fragment fragment.parentPath (build fragments) := by
  unfold build
  rw [List.filter_append, List.foldl_append]
  cases h : fragment.isAssumed <;> simp [h, Fragment.parentPath]

/-- Whether a namespace at the path is needed: it is the root, or a concrete fragment stands in it or
    below it. -/
def isNeeded (fragments : List Fragment) (path : List String) : Bool :=
  path.isEmpty || fragments.any fun fragment =>
    !fragment.isAssumed && path.isPrefixOf fragment.parentPath

/-- Whether the fragment is a member of the namespace at the path. -/
def isMemberAt (path : List String) (fragment : Fragment) : Bool :=
  !fragment.isAssumed && fragment.parentPath == path

theorem isNeeded_iff {fragments : List Fragment} {path : List String} :
    isNeeded fragments path = true ↔ path = [] ∨
      ∃ fragment ∈ fragments, fragment.isAssumed = false ∧ path <+: fragment.parentPath := by
  simp [isNeeded]

theorem isNeeded_concat (fragments : List Fragment) (fragment : Fragment) (path : List String) :
    isNeeded (fragments ++ [fragment]) path =
      (isNeeded fragments path || (!fragment.isAssumed && path.isPrefixOf fragment.parentPath)) := by
  simp [isNeeded, Bool.or_assoc]

/-- Where no namespace is needed, there are no members either. -/
theorem filter_isMemberAt_eq_nil {fragments : List Fragment} {path : List String}
    (h : isNeeded fragments path = false) : fragments.filter (isMemberAt path) = [] := by
  refine List.filter_eq_nil_iff.2 fun fragment hfragment hmember => ?_
  obtain ⟨hassumed, hpath⟩ : fragment.isAssumed = false ∧ fragment.parentPath = path := by
    simpa [isMemberAt] using hmember
  have hneeded : isNeeded fragments path = true :=
    isNeeded_iff.2 (.inr ⟨fragment, hfragment, hassumed, hpath ▸ List.prefix_refl _⟩)
  rw [h] at hneeded
  exact Bool.noConfusion hneeded

/-- There is a namespace where one is needed, and it holds the concrete fragments of its path. -/
theorem membersAt_build (fragments : List Fragment) (path : List String) :
    (build fragments).membersAt path =
      if isNeeded fragments path then some (fragments.filter (isMemberAt path)) else none := by
  induction fragments using List.reverseRecOn with
  | nil =>
    have hbuild : build [] = empty "" := rfl
    rw [hbuild, membersAt_empty]
    cases path <;> rfl
  | append_singleton fragments fragment ih =>
    rw [build_concat, List.filter_append, isNeeded_concat]
    cases hassumed : fragment.isAssumed with
    | true =>
      have hnone : [fragment].filter (isMemberAt path) = [] := by simp [isMemberAt, hassumed]
      simp [ih, hnone]
    | false =>
      have hsingle : [fragment].filter (isMemberAt path) =
          if path = fragment.parentPath then [fragment] else [] := by
        by_cases hpath : path = fragment.parentPath
        · simp [isMemberAt, hassumed, hpath]
        · simp [isMemberAt, hassumed, hpath, Ne.symm hpath]
      have hbefore : ((build fragments).membersAt path).getD [] = fragments.filter (isMemberAt path) := by
        rw [ih]
        cases hpath : isNeeded fragments path with
        | true => rfl
        | false =>
          rw [filter_isMemberAt_eq_nil hpath]
          rfl
      simp only [Bool.false_eq_true, if_false, Bool.not_false, Bool.true_and]
      rw [membersAt_insert, hbefore, hsingle]
      -- Inserting makes the namespaces on the way to the fragment and leaves the others alone.
      by_cases hbelow : path.isPrefixOf fragment.parentPath = true
      · rw [if_pos hbelow, hbelow, Bool.or_true, if_pos rfl]
      · have hne : path ≠ fragment.parentPath := fun h => hbelow (by simp [h])
        rw [Bool.not_eq_true] at hbelow
        rw [hbelow, Bool.or_false, if_neg Bool.false_ne_true, if_neg hne, List.append_nil, ih]

theorem find?_build_isSome (fragments : List Fragment) (path : List String) :
    ((build fragments).find? path).isSome = isNeeded fragments path := by
  have hmembers := membersAt_build fragments path
  unfold membersAt at hmembers
  cases hfound : (build fragments).find? path with
  | some space =>
    by_contra hnot
    rw [hfound, if_neg (fun h => hnot h.symm)] at hmembers
    exact absurd hmembers (by simp)
  | none =>
    by_contra hnot
    rw [hfound, if_pos (by simpa using hnot)] at hmembers
    exact absurd hmembers (by simp)

theorem members_of_find?_build {fragments : List Fragment} {path : List String} {space : Namespace}
    (h : (build fragments).find? path = some space) :
    space.members = fragments.filter (isMemberAt path) := by
  have hneeded : isNeeded fragments path = true := by
    rw [← find?_build_isSome, h]
    rfl
  have hmembers := membersAt_build fragments path
  rw [membersAt, h, if_pos hneeded] at hmembers
  exact Option.some.inj hmembers

/-- A member of the namespace at a path has this path but for the last segment. -/
theorem path_of_mem_members {fragments : List Fragment} {path : List String} {space : Namespace}
    {fragment : Fragment}
    (h : (build fragments).find? path = some space) (hmem : fragment ∈ space.members) :
    fragment.path.dropLast = path := by
  rw [members_of_find?_build h] at hmem
  have hmember := (List.mem_filter.1 hmem).2
  rw [isMemberAt, Bool.and_eq_true] at hmember
  exact beq_iff_eq.1 hmember.2

/-! ### Paths of names -/

theorem find?_append (space : Namespace) (first others : List String) :
    space.find? (first ++ others) = (space.find? first).bind (find? · others) := by
  induction first generalizing space with
  | nil => rfl
  | cons segment first ih =>
    rw [List.cons_append, find?, find?]
    cases hchild : space.child? segment with
    | none => rfl
    | some inner => exact ih inner

theorem find?_concat {root space : Namespace} {path : List String} (h : root.find? path = some space)
    (key : String) : root.find? (path ++ [key]) = space.child? key := by
  rw [find?_append, h, Option.bind_some, find?]
  cases space.child? key <;> rfl

/-- A namespace has the name that the path to it ends with. -/
theorem name_of_find? {root space : Namespace} {path : List String} {key : String}
    (h : root.find? (path ++ [key]) = some space) : space.name = key := by
  rw [find?_append] at h
  obtain ⟨outer, houter, hinner⟩ := Option.bind_eq_some_iff.1 h
  rw [find?] at hinner
  obtain ⟨inner, hinner, hspace⟩ := Option.bind_eq_some_iff.1 hinner
  rw [← Option.some.inj hspace]
  exact name_of_child? hinner

/-! ### Tidy namespaces -/

mutual

/-- In a namespace and all inside it, children have distinct names and members are concrete. -/
def Tidy : Namespace → Prop
  | node _ members children =>
    (∀ fragment ∈ members, fragment.isAssumed = false) ∧ (children.map name).Nodup ∧ AllTidy children

/-- All of the namespaces are tidy. -/
def AllTidy : List Namespace → Prop
  | [] => True
  | space :: rest => Tidy space ∧ AllTidy rest

end

theorem allTidy_iff {children : List Namespace} :
    AllTidy children ↔ ∀ space ∈ children, space.Tidy := by
  induction children with
  | nil => simp [AllTidy]
  | cons space rest ih => simp [AllTidy, ih]

/-- The names of the children after a change: a new one goes to the end. -/
theorem map_name_updateChild {change : Namespace → Namespace}
    (hchange : ∀ space, (change space).name = space.name) (name : String) (children : List Namespace) :
    (updateChild name change children).map Namespace.name =
      if name ∈ children.map Namespace.name then children.map Namespace.name
      else children.map Namespace.name ++ [name] := by
  induction children with
  | nil =>
    have hempty : (change (empty name)).name = name := hchange (empty name)
    simp [updateChild, hempty]
  | cons space rest ih =>
    unfold updateChild
    by_cases hname : space.name = name
    · rw [if_pos hname, List.map_cons, hchange]
      simp [hname]
    · rw [if_neg hname, List.map_cons, ih]
      -- The change goes on in the rest, and the name is new if it is new there.
      by_cases hrest : name ∈ rest.map Namespace.name
      · have hold : name ∈ (space :: rest).map Namespace.name := List.mem_cons_of_mem _ hrest
        rw [if_pos hrest, if_pos hold]
        rfl
      · have hnew : name ∉ (space :: rest).map Namespace.name := by
          rw [List.map_cons, List.mem_cons]
          exact fun h => h.elim (fun h => hname h.symm) hrest
        rw [if_neg hrest, if_neg hnew]
        rfl

theorem allTidy_updateChild {change : Namespace → Namespace}
    (hchange : ∀ space, space.Tidy → (change space).Tidy) (name : String) {children : List Namespace}
    (h : AllTidy children) : AllTidy (updateChild name change children) := by
  induction children with
  | nil =>
    have hempty : (empty name).Tidy := by simp [empty, Tidy, AllTidy]
    exact ⟨hchange _ hempty, trivial⟩
  | cons space rest ih =>
    unfold updateChild
    split
    · exact ⟨hchange space h.1, h.2⟩
    · exact ⟨h.1, ih h.2⟩

theorem Tidy.insert {fragment : Fragment} (hfragment : fragment.isAssumed = false) (place : List String)
    {space : Namespace} (h : space.Tidy) : (Namespace.insert fragment place space).Tidy := by
  induction place generalizing space with
  | nil =>
    obtain ⟨name, members, children⟩ := space
    obtain ⟨hmembers, hchildren⟩ := h
    refine ⟨fun other hother => ?_, hchildren⟩
    rcases List.mem_append.1 hother with hother | hother
    · exact hmembers other hother
    · rw [List.mem_singleton.1 hother]
      exact hfragment
  | cons key place ih =>
    obtain ⟨name, members, children⟩ := space
    obtain ⟨hmembers, hnames, hchildren⟩ := h
    refine ⟨hmembers, ?_, allTidy_updateChild (fun _ => ih) key hchildren⟩
    rw [map_name_updateChild (name_insert fragment place)]
    split
    · exact hnames
    -- A child that is made on the way has a name that no other child has.
    · next hnew =>
      refine List.nodup_append.2 ⟨hnames, List.nodup_singleton key, fun a ha b hb => ?_⟩
      rw [List.mem_singleton.1 hb]
      exact fun heq => hnew (heq ▸ ha)

theorem tidy_build (fragments : List Fragment) : (build fragments).Tidy := by
  induction fragments using List.reverseRecOn with
  | nil => exact ⟨fun _ h => absurd h List.not_mem_nil, List.nodup_nil, trivial⟩
  | append_singleton fragments fragment ih =>
    rw [build_concat]
    cases hassumed : fragment.isAssumed with
    | true => exact ih
    | false => exact ih.insert hassumed fragment.parentPath

/-- A path of names in a tidy namespace leads to a tidy one. -/
theorem Tidy.find? {root space : Namespace} (h : root.Tidy) {path : List String}
    (hfound : root.find? path = some space) : space.Tidy := by
  induction path generalizing root with
  | nil => exact Option.some.inj hfound ▸ h
  | cons segment rest ih =>
    obtain ⟨name, members, children⟩ := root
    obtain ⟨inner, hinner, hrest⟩ := Option.bind_eq_some_iff.1 hfound
    exact ih (allTidy_iff.1 h.2.2 inner (List.mem_of_find?_eq_some hinner)) hrest

/-- In a tidy namespace every child is found under its name. -/
theorem Tidy.child? {space inner : Namespace} (h : space.Tidy) (hmem : inner ∈ space.children) :
    space.child? inner.name = some inner := by
  obtain ⟨name, members, children⟩ := space
  obtain ⟨-, hnames, -⟩ := h
  rw [child?_node]
  cases hfound : children.find? (·.name == inner.name) with
  | none =>
    have := List.find?_eq_none.1 hfound inner hmem
    simp at this
  | some other =>
    have hbeq := List.find?_some hfound
    have hname : other.name = inner.name := beq_iff_eq.1 hbeq
    have heq := List.inj_on_of_nodup_map hnames (List.mem_of_find?_eq_some hfound) hmem hname
    rw [heq]

/-- The child of a namespace stands at the path that goes on with its name. -/
theorem find?_build_child {fragments : List Fragment} {path : List String} {space inner : Namespace}
    (hfound : (build fragments).find? path = some space) (hinner : inner ∈ space.children) :
    (build fragments).find? (path ++ [inner.name]) = some inner := by
  have htidy := (tidy_build fragments).find? hfound
  rw [find?_concat hfound]
  exact htidy.child? hinner

end Namespace

end Typewright
