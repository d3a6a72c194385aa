import VhdlStyle.Design.Decl.Basic

/-! # Concurrent statements -/

namespace VhdlStyle

/-- One arm of a selected assignment. -/
structure SelectedWaveform where
  waveform : List Expr
  choices : List Expr
  deriving Inhabited

/-- A process; a sensitivity to all signals is the single word `all`. -/
structure ProcessBody where
  postponed : Bool := false
  sensitivity : List Expr := []
  hasIs : Bool := false
  decls : List Decl := []
  declTail : List Comment := []
  stmts : List SeqStmt := []
  endLabel : Bytes := []
  tail : List Comment := []

/-- An instantiation: `unitKind` is a reserved word in its spelling, or empty for a bare component
name; `arch` is the architecture in parentheses, or empty. -/
structure Instantiation where
  unitKind : Bytes := []
  unit : Expr
  arch : Bytes := []
  genericMap : Option MapList := none
  portMap : Option MapList := none
  deriving Inhabited

mutual

/-- A statement of an architecture or a generate body. -/
inductive ConcStmt where
  | assign (head : Head) (target : Expr) (waveforms : List CondWaveform)
  | selectedAssign (head : Head) (selector target : Expr) (arms : List SelectedWaveform)
  | process (head : Head) (body : ProcessBody)
  | instantiation (head : Head) (inst : Instantiation)
  | forGenerate (head : Head) (param : Bytes) (range : Expr) (body : GenerateBody)
      (endLabel : Bytes)
  | ifGenerate (head : Head) (branches : List GenerateBranch) (endLabel : Bytes)
  | assertStmt (head : Head) (assertion : Assertion)
  | call (head : Head) (callee : Expr)

/-- The region inside a generate statement. -/
inductive GenerateBody where
  | mk (decls : List Decl) (hasBegin : Bool) (stmts : List ConcStmt) (tail : List Comment)

/-- An arm of an if generate statement; the condition is missing after `else`. -/
inductive GenerateBranch where
  | mk (cond : Option Expr) (body : GenerateBody)

end

/-- What the statement starts with. -/
def ConcStmt.head : ConcStmt → Head
  | .assign h .. | .selectedAssign h .. | .process h .. | .instantiation h .. | .forGenerate h ..
  | .ifGenerate h .. | .assertStmt h .. | .call h .. => h

end VhdlStyle
