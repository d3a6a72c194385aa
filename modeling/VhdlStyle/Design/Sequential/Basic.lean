import VhdlStyle.Design.Interface.Basic

/-! # Sequential statements -/

namespace VhdlStyle

/-- What every statement starts with: its trivia and its label, empty when there is none. -/
structure Head where
  trivia : RowTrivia := {}
  label : Bytes := []
  deriving DecidableEq, Inhabited

/-- The head with the comment behind the statement. -/
def Head.withInline (h : Head) (inline : Bytes) : Head :=
  { h with trivia := { h.trivia with inline := inline } }

/-- One arm of a conditional assignment: the waveform elements and the condition, if any. -/
structure CondWaveform where
  waveform : List Expr
  cond : Option Expr := none
  deriving Inhabited

/-- An assertion; `postponed` is possible outside processes only. -/
structure Assertion where
  postponed : Bool := false
  cond : Expr
  report : Option Expr := none
  severity : Option Expr := none
  deriving Inhabited

/-- How a loop is controlled. -/
inductive LoopScheme where
  | forIn (param : Bytes) (range : Expr)
  | while_ (cond : Expr)
  | forever
  deriving Inhabited

mutual

/-- A statement of a process or subprogram body. -/
inductive SeqStmt where
  | signalAssign (head : Head) (target : Expr) (waveforms : List CondWaveform)
  | varAssign (head : Head) (target value : Expr)
  | ifStmt (head : Head) (branches : List IfBranch) (endLabel : Bytes)
  | caseStmt (head : Head) (matching : Bool) (selector : Expr) (alts : List CaseAlt)
      (endLabel : Bytes) (tail : List Comment)
  | loop (head : Head) (scheme : LoopScheme) (stmts : List SeqStmt) (endLabel : Bytes)
      (tail : List Comment)
  /-- `next` and `exit`. -/
  | loopControl (head : Head) (keyword loopLabel : Bytes) (cond : Option Expr)
  | returnStmt (head : Head) (value : Option Expr)
  | nullStmt (head : Head)
  | waitStmt (head : Head) (on : List Expr) (until_ : Option Expr) (for_ : Option Expr)
  | reportStmt (head : Head) (message : Expr) (severity : Option Expr)
  | assertStmt (head : Head) (assertion : Assertion)
  | call (head : Head) (callee : Expr)

/-- An arm of an if statement; the condition is missing after `else`. -/
inductive IfBranch where
  | mk (cond : Option Expr) (stmts : List SeqStmt) (tail : List Comment)

/-- An alternative of a case statement; its inline comment stands after the arrow. -/
inductive CaseAlt where
  | mk (trivia : RowTrivia) (choices : List Expr) (stmts : List SeqStmt)

end

/-- What the statement starts with. -/
def SeqStmt.head : SeqStmt → Head
  | .signalAssign h .. | .varAssign h .. | .ifStmt h .. | .caseStmt h .. | .loop h ..
  | .loopControl h .. | .returnStmt h .. | .nullStmt h | .waitStmt h .. | .reportStmt h ..
  | .assertStmt h .. | .call h .. => h

end VhdlStyle
