import VhdlStyle.Design.Sequential.Basic

/-! # Declarations -/

namespace VhdlStyle

/-- The classes of declared objects. -/
inductive ObjectClass where
  | signal
  | constant
  | variable_
  | shared
  deriving DecidableEq, Inhabited

/-- A unit of a physical type; the primary unit has no value. -/
structure PhysicalUnit where
  trivia : RowTrivia := {}
  name : Bytes
  value : Option Expr := none
  deriving Inhabited

/-- A row of a record type. -/
structure RecordField where
  trivia : RowTrivia := {}
  names : List Bytes
  indication : SubtypeIndication
  deriving Inhabited

/-- What a type is declared as. -/
inductive TypeDef where
  /-- Identifiers and character literals. -/
  | enum (literals : List Leaf)
  | range (r : Expr) (units : List PhysicalUnit)
  | array (indexes : List Expr) (element : SubtypeIndication)
  | record (fields : List RecordField) (endLabel : Bytes) (tail : List Comment)
  | access (target : SubtypeIndication)

/-- The header of a function or procedure; `kind` and `purity` are reserved words in their
spelling, the name is an identifier or an operator symbol. -/
structure SubprogramSpec where
  kind : Bytes := []
  purity : Bytes := []
  name : Bytes := []
  params : List InterfaceItem := []
  tail : List Comment := []
  result : Option Expr := none
  deriving Inhabited

/-- A token of a declaration that is kept as it is. -/
structure RawToken where
  text : Bytes
  isKeyword : Bool
  isIdent : Bool
  deriving DecidableEq, Inhabited

/-- A use clause: selected names. -/
structure UseClause where
  trivia : RowTrivia := {}
  names : List Expr
  deriving Inhabited

/-- A declaration. -/
inductive Decl where
  /-- The keyword keeps its spelling and is two words for shared variables. -/
  | object (trivia : RowTrivia) (objectClass : ObjectClass) (keyword : Bytes) (names : List Bytes)
      (indication : SubtypeIndication) (default : Option Expr)
  /-- An incomplete type declaration has no definition. -/
  | type (trivia : RowTrivia) (name : Bytes) (definition : Option TypeDef)
  | subtype (trivia : RowTrivia) (name : Bytes) (indication : SubtypeIndication)
  | alias (trivia : RowTrivia) (name : Bytes) (indication : Option SubtypeIndication)
      (target : Expr)
  | component (trivia : RowTrivia) (name : Bytes) (generics ports : Option InterfaceList)
      (endLabel : Bytes) (tail : List Comment)
  | attribute (trivia : RowTrivia) (name : Bytes) (mark : Expr)
  | attributeSpec (trivia : RowTrivia) (name : Bytes) (entities : List Expr) (entityClass : Bytes)
      (value : Expr)
  | subprogram (trivia : RowTrivia) (spec : SubprogramSpec)
  | subprogramBody (trivia : RowTrivia) (spec : SubprogramSpec) (decls : List Decl)
      (declTail : List Comment) (stmts : List SeqStmt) (endLabel : Bytes) (tail : List Comment)
  | use (clause : UseClause)
  /-- A declaration that has no structure of its own here, as its tokens. -/
  | raw (trivia : RowTrivia) (tokens : List RawToken)

/-- The trivia of a declaration. -/
def Decl.trivia : Decl → RowTrivia
  | .object t .. | .type t .. | .subtype t .. | .alias t .. | .component t .. | .attribute t ..
  | .attributeSpec t .. | .subprogram t .. | .subprogramBody t .. | .raw t .. => t
  | .use clause => clause.trivia

end VhdlStyle
