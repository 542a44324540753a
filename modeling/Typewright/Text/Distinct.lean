/-!
# Lists without repetitions

Keeping the first of equal elements, in order.
-/

namespace Typewright.Text

variable {α : Type}

/-- Adds an element at the end unless an equal one is there. -/
def insertNew [BEq α] (xs : List α) (x : α) : List α :=
  if xs.contains x then xs else xs ++ [x]

/-- Adds elements one by one, each unless an equal one is there. -/
def insertAllNew [BEq α] (xs ys : List α) : List α :=
  ys.foldl insertNew xs

/-- The list without the elements that repeat an earlier one. -/
def distinct [BEq α] (xs : List α) : List α :=
  insertAllNew [] xs

/-- The list without the elements whose key repeats an earlier one's; `seen` are the keys met. -/
def distinctByFrom {β : Type} [BEq β] (key : α → β) (seen : List β) : List α → List α
  | [] => []
  | x :: rest =>
    if seen.contains (key x) then distinctByFrom key seen rest
    else x :: distinctByFrom key (key x :: seen) rest

/-- The list without the elements whose key repeats an earlier one's. -/
def distinctBy {β : Type} [BEq β] (key : α → β) (xs : List α) : List α :=
  distinctByFrom key [] xs

end Typewright.Text
