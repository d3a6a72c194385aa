import VhdlStyle.Design.Concurrent.Basic

/-! # Design units and files -/

namespace VhdlStyle

/-- An item of a context clause. -/
inductive ContextItem where
  | library (trivia : RowTrivia) (names : List Bytes)
  | use (clause : UseClause)

/-- The trivia of a context item. -/
def ContextItem.trivia : ContextItem → RowTrivia
  | .library t _ => t
  | .use clause => clause.trivia

/-- What is special to each kind of design unit. -/
inductive UnitBody where
  | entity (generics ports : Option InterfaceList) (decls : List Decl) (hasBegin : Bool)
      (stmts : List ConcStmt)
  | architecture (entityName : Bytes) (decls : List Decl) (declTail : List Comment)
      (stmts : List ConcStmt)
  | package (generics : Option InterfaceList) (decls : List Decl)
  | packageBody (decls : List Decl)

/-- A design unit with the context clause in front of it; `tail` are the comments before its
end. -/
structure DesignUnit where
  trivia : RowTrivia := {}
  context : List ContextItem := []
  name : Bytes
  body : UnitBody
  endLabel : Bytes := []
  tail : List Comment := []

/-- The units of a source and the comments after the last one. -/
structure DesignFile where
  units : List DesignUnit := []
  trailing : List Comment := []
  deriving Inhabited

end VhdlStyle
