/-! # Edit scripts

A script walks through an old and a new list at once. It determines both: its `source` is the old
list and its `target` the new one. -/

namespace VhdlStyle

/-- One step of a script. -/
inductive Edit (α : Type) where
  | keep (line : α)
  | delete (line : α)
  | insert (line : α)
  deriving DecidableEq, Inhabited

namespace Edit

variable {α : Type}

/-- The step leaves its line as it is. -/
def isKeep : Edit α → Bool
  | .keep _ => true
  | _ => false

/-- The line of the old list that the step passes. -/
def old? : Edit α → Option α
  | .keep l => some l
  | .delete l => some l
  | .insert _ => none

/-- The line of the new list that the step passes. -/
def new? : Edit α → Option α
  | .keep l => some l
  | .delete _ => none
  | .insert l => some l

end Edit

/-- Steps from the front of both lists to their ends. -/
abbrev Script (α : Type) := List (Edit α)

namespace Script

variable {α : Type}

/-- The old list. -/
def source (s : Script α) : List α := s.filterMap Edit.old?

/-- The new list. -/
def target (s : Script α) : List α := s.filterMap Edit.new?

/-- The number of steps that change something. -/
def cost (s : Script α) : Nat := s.countP (!·.isKeep)

@[simp] theorem source_nil : source ([] : Script α) = [] := rfl

@[simp] theorem target_nil : target ([] : Script α) = [] := rfl

@[simp] theorem source_append (s t : Script α) : source (s ++ t) = source s ++ source t :=
  List.filterMap_append

@[simp] theorem target_append (s t : Script α) : target (s ++ t) = target s ++ target t :=
  List.filterMap_append

@[simp] theorem cost_append (s t : Script α) : cost (s ++ t) = cost s + cost t :=
  List.countP_append

end Script

end VhdlStyle
