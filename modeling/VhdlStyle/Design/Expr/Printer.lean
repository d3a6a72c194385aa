import VhdlStyle.Doc.Block
import VhdlStyle.Settings.Basic
import VhdlStyle.Design.Expr.Basic

/-! # Printing expressions -/

namespace VhdlStyle

/-- What printing depends on: the settings, and the casing with all constants of the file. -/
structure Printer where
  settings : Settings
  casing : Casing
  deriving Inhabited

namespace Printer

/-- A reserved word. -/
def keyword (p : Printer) (text : Bytes) : Doc := .text (p.casing.keyword text)

/-- A name. -/
def name (p : Printer) (text : Bytes) : Doc := .text (p.casing.name text)

/-- Names parted by commas. -/
def names (p : Printer) (ns : List Bytes) : Doc := Doc.join (.text ", ") (ns.map p.name)

/-- A leaf of an expression. -/
def leaf (p : Printer) (l : Leaf) : Doc :=
  if l.kind.isIdent then p.name l.text
  else if l.kind.isKeyword then p.keyword l.text
  else .text l.text

/-- An operator. -/
def operator (p : Printer) (l : Leaf) : Doc :=
  if l.kind.isKeyword then p.keyword l.text else .text l.text

/-- A line may break after logical and adding operators. -/
def breaksAfter : Kind → Bool
  | .kwAnd | .kwOr | .kwXor | .kwNand | .kwNor | .kwXnor | .amp | .plus | .minus => true
  | _ => false

/-- List elements in parentheses, on one line or one to a line. -/
def parens (parts : List Doc) : Doc :=
  Doc.wrap "(" (Doc.join (.concat [.text ",", .line]) parts) ")"

mutual

/-- An expression. -/
def expr (p : Printer) : Expr → Doc
  | .leaf l => p.leaf l
  | .unary op x =>
    if op.kind == .plus || op.kind == .minus then .concat [.text op.text, expr p x]
    else .concat [p.operator op, .space, expr p x]
  | .binary op x y =>
    .concat [expr p x, .space, p.operator op, if breaksAfter op.kind then .line else .space,
      expr p y]
  | .paren x => .concat [.text "(", expr p x, .text ")"]
  | .call f args => .concat [expr p f, parens (assocs p args)]
  | .selected x l => .concat [expr p x, .text ".", p.leaf l]
  | .attribute x l => .concat [expr p x, .text "'", p.leaf l]
  | .qualified mark x => .concat [expr p mark, .text "'", expr p x]
  | .aggregate elems => parens (assocs p elems)

/-- Expressions. -/
def exprs (p : Printer) : List Expr → List Doc
  | [] => []
  | x :: rest => expr p x :: exprs p rest

/-- A list element. -/
def assoc (p : Printer) : Assoc → Doc
  | .mk choices actual =>
    if choices.isEmpty then expr p actual
    else .concat [Doc.join (.text " | ") (exprs p choices), .text " => ", expr p actual]

/-- List elements. -/
def assocs (p : Printer) : List Assoc → List Doc
  | [] => []
  | a :: rest => assoc p a :: assocs p rest

end

/-- An expression whose breaks are decided apart from what surrounds it. -/
def value (p : Printer) (x : Expr) : Doc := .group (.indent 1 (p.expr x))

/-- Choices parted by bars. -/
def choices (p : Printer) (xs : List Expr) : Doc := Doc.join (.text " | ") (p.exprs xs)

/-- Expressions parted by commas. -/
def exprList (p : Printer) (xs : List Expr) : Doc := Doc.join (.text ", ") (p.exprs xs)

/-- A reserved word with spaces around it, and an expression; nothing for a missing one. -/
def clause (p : Printer) (word : Bytes) (show_ : Expr → Doc) : Option Expr → List Doc
  | none => []
  | some x => [.space, p.keyword word, .space, show_ x]

end Printer

end VhdlStyle
