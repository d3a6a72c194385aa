import VhdlStyle.Design.Comment
import VhdlStyle.Design.Expr.Basic

/-! # Subtypes and interface lists -/

namespace VhdlStyle

/-- What narrows a type: index ranges in parentheses, or a range. -/
inductive Constraint where
  | index (ranges : List Expr)
  | range (r : Expr)

/-- A subtype indication: an optional resolution function, a type mark, a constraint. -/
structure SubtypeIndication where
  resolution : Option Expr := none
  mark : Expr
  constraint : Option Constraint := none
  deriving Inhabited

/-- A row of an interface list: a generic, a port or a parameter. `objectClass` and `mode` are
reserved words in their spelling, or empty; generics have no mode. -/
structure InterfaceItem where
  trivia : RowTrivia := {}
  objectClass : Bytes := []
  names : List Bytes
  mode : Bytes := []
  indication : SubtypeIndication
  default : Option Expr := none
  deriving Inhabited

/-- An interface list and the comments before its closing parenthesis. -/
structure InterfaceList where
  items : List InterfaceItem
  tail : List Comment := []
  deriving Inhabited

/-- A row of a generic or port map. -/
structure MapItem where
  trivia : RowTrivia := {}
  assoc : Assoc

/-- A generic or port map and the comments before its closing parenthesis. -/
structure MapList where
  items : List MapItem
  tail : List Comment := []
  deriving Inhabited

end VhdlStyle
