import VhdlStyle.Token.Kind

/-! # Expressions

Names, literals and operators keep their spelling; letter case is a matter of printing. -/

namespace VhdlStyle

/-- One token of an expression: an identifier, a literal, an operator or a reserved word. A
physical literal is one leaf, number and unit parted by a space. -/
structure Leaf where
  kind : Kind
  text : Bytes := []
  deriving DecidableEq, Inhabited

mutual

/-- An expression. Ranges, index subtypes and waveform elements are binary expressions of the
words `to`, `downto`, `range` and `after`. -/
inductive Expr where
  | leaf (token : Leaf)
  | unary (op : Leaf) (x : Expr)
  | binary (op : Leaf) (x y : Expr)
  | paren (x : Expr)
  /-- Calls, indexed names and slices look alike. -/
  | call (callee : Expr) (args : List Assoc)
  | selected (x : Expr) (suffix : Leaf)
  | attribute (x : Expr) (name : Leaf)
  | qualified (mark x : Expr)
  | aggregate (elems : List Assoc)

/-- An element of a list: choices before an arrow, if any, and the actual part. -/
inductive Assoc where
  | mk (choices : List Expr) (actual : Expr)

end

namespace Assoc

/-- The formal part; several choices are parted by bars. -/
def choices : Assoc → List Expr
  | .mk choices _ => choices

/-- The actual part. -/
def actual : Assoc → Expr
  | .mk _ actual => actual

end Assoc

namespace Expr

/-- An identifier. -/
def ident (name : Bytes) : Expr := .leaf ⟨.ident, name⟩

/-- The place of an expression that could not be read. -/
def missing : Expr := .leaf ⟨.invalid, []⟩

instance : Inhabited Expr := ⟨missing⟩

end Expr

end VhdlStyle
