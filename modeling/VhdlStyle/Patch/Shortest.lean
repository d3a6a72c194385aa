import VhdlStyle.Patch.Script

/-! # Shortest edit scripts

Points of a grid count the lines passed in the old and the new list. The search goes by rounds: in
round `d` it knows, for each diagonal that `d` changes can reach, the point furthest along it. Each
point carries the script that leads to it. The first script that passes both lists has the fewest
changes. -/

namespace VhdlStyle

variable {α : Type}

/-- A point on a diagonal, with what remains of both lists and the steps so far, latest first. -/
structure Reach (α : Type) where
  passed : Nat
  oldRest : List α
  newRest : List α
  steps : List (Edit α)

namespace Reach

/-- Keeps lines as long as both lists go on alike. -/
def slide [BEq α] (passed : Nat) : List α → List α → List (Edit α) → Reach α
  | a :: old, b :: new, steps =>
    if a == b then slide (passed + 1) old new (.keep a :: steps)
    else ⟨passed, a :: old, b :: new, steps⟩
  | old, new, steps => ⟨passed, old, new, steps⟩

/-- One line further in the old list, then along the diagonal. Past the end of the list the point
lies outside the grid and leads nowhere. -/
def delete [BEq α] (r : Reach α) : Reach α :=
  match r.oldRest with
  | a :: old => slide (r.passed + 1) old r.newRest (.delete a :: r.steps)
  | [] => { r with passed := r.passed + 1 }

/-- One line further in the new list, then along the diagonal. -/
def insert [BEq α] (r : Reach α) : Reach α :=
  match r.newRest with
  | b :: new => slide r.passed r.oldRest new (.insert b :: r.steps)
  | [] => r

/-- Both lists are passed. -/
def isDone (r : Reach α) : Bool := r.oldRest.isEmpty && r.newRest.isEmpty

end Reach

namespace Script

/-- The points between and after those of a round: each comes from the neighbour further on, and
from a deletion when they are level. -/
def between [BEq α] : Reach α → List (Reach α) → List (Reach α)
  | last, [] => [last.delete]
  | left, right :: rest =>
    (if left.passed < right.passed then right.insert else left.delete) :: between right rest

/-- The points of the next round, the diagonal with the most insertions first. -/
def nextRound [BEq α] : List (Reach α) → List (Reach α)
  | [] => []
  | first :: rest => first.insert :: between first rest

/-- Rounds until some point is done. -/
def search [BEq α] : Nat → List (Reach α) → Script α
  | 0, _ => []
  | rounds + 1, reached =>
    match reached.find? Reach.isDone with
    | some r => r.steps.reverse
    | none => search rounds (nextRound reached)

/-- A shortest script from `old` to `new`. -/
def shortest [BEq α] (old new : List α) : Script α :=
  search (old.length + new.length + 1) [Reach.slide 0 old new []]

end Script

end VhdlStyle
