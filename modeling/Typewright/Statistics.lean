import Typewright.Fragment.Set

/-!
# Statistics of a run
-/

namespace Typewright

/-- What a run made. -/
structure Statistics where
  declarations : Nat := 0
  /-- How many of the declarations are enums. -/
  enums : Nat := 0
  statements : Nat := 0
  members : Nat := 0
  operations : Nat := 0
  /-- How often the pending references were expanded. -/
  passes : Nat := 0
  /-- How many references were expanded. -/
  expanded : Nat := 0
  /-- How many references each pass expanded. -/
  perPass : List Nat := []
  /-- How many references are still assumed. -/
  placeholders : Nat := 0
  warnings : List Warning := []
deriving Repr

namespace Statistics

/-- Counts a fragment. -/
def recordFragment (stats : Statistics) : Fragment → Statistics
  | .statement .. => { stats with statements := stats.statements + 1 }
  | .declaration _ _ (.enum _) =>
    { stats with declarations := stats.declarations + 1, enums := stats.enums + 1 }
  | .declaration .. => { stats with declarations := stats.declarations + 1 }
  | .member .. => { stats with members := stats.members + 1 }
  | .assumed _ => { stats with placeholders := stats.placeholders + 1 }

/-- Counts a pass that expanded so many references. -/
def recordPass (stats : Statistics) (expanded : Nat) : Statistics :=
  { stats with
    passes := stats.passes + 1
    expanded := stats.expanded + expanded
    perPass := stats.perPass ++ [expanded] }

/-- Counts the fragments, the operations and the warnings of a set. -/
def recordSet (stats : Statistics) (set : FragmentSet) : Statistics :=
  let counted := set.fragments.foldl recordFragment stats
  { counted with
    operations := counted.operations + set.operations.length
    warnings := counted.warnings ++ set.warnings }

end Statistics

end Typewright
