import VhdlStyle.Design.Interface.Parser
import VhdlStyle.Design.Sequential.Basic

/-! # Reading sequential statements

The statements inside a compound statement are read by the parameter `block`, so that each level
of nesting is one unfolding. -/

namespace VhdlStyle

open Parse

/-! ## Parts shared with concurrent statements -/

/-- Reads a label and its colon, if they follow. -/
def Head.parseLabel : Parse Bytes := do
  if (← isAtAny [.ident, .extIdent]) && (← kindAhead 1) == .colon then
    let label ← advance
    skip
    return label.text
  return []

/-- Reads the semicolon and the comment behind a statement. -/
def Head.finish (h : Head) : Parse Head := do
  semicolon
  return h.withInline (← inline)

/-- Reads a waveform element. -/
def CondWaveform.parseElement : Parse Expr := do
  let x ← Expr.parse
  match ← accept? .kwAfter with
  | some t => return .binary (Expr.leafOf t) x (← Expr.parse)
  | none => return x

/-- Reads waveform elements, or the word `unaffected` alone. -/
def CondWaveform.parseWaveform : Parse (List Expr) := do
  match ← accept? .kwUnaffected with
  | some t => return [.leaf (Expr.leafOf t)]
  | none => sepBy .comma CondWaveform.parseElement

/-- Reads the arms of a conditional assignment: another arm follows a condition and `else`. -/
def CondWaveform.parseArmsN : Nat → Parse (List CondWaveform)
  | 0 => giveUp []
  | fuel + 1 => do
    let waveform ← CondWaveform.parseWaveform
    if !(← accept .kwWhen) then return [⟨waveform, none⟩]
    let arm : CondWaveform := ⟨waveform, some (← Expr.parse)⟩
    if !(← accept .kwElse) then return [arm]
    return arm :: (← CondWaveform.parseArmsN fuel)

/-- Reads the arms of a conditional assignment. -/
def CondWaveform.parseArms : Parse (List CondWaveform) := fun s =>
  CondWaveform.parseArmsN s.size s

/-- Reads an assertion from its first word to its semicolon. -/
def Assertion.parse (postponed : Bool) : Parse Assertion := do
  skip
  let cond ← Expr.parse
  let report ← if ← accept .kwReport then pure (some (← Expr.parse)) else pure none
  let severity ← if ← accept .kwSeverity then pure (some (← Expr.parse)) else pure none
  return { postponed, cond, report, severity }

namespace SeqStmt

/-- The words that end a list of statements. -/
def stops : List Kind := [.kwEnd, .kwElsif, .kwElse, .kwWhen]

/-! ## Simple statements -/

/-- Reads `next` or `exit`. -/
def parseLoopControl (h : Head) : Parse SeqStmt := do
  let word ← advance
  let loopLabel ← optLabel
  let cond ← if ← accept .kwWhen then pure (some (← Expr.parse)) else pure none
  return .loopControl (← h.finish) word.text loopLabel cond

/-- Reads a return statement. -/
def parseReturn (h : Head) : Parse SeqStmt := do
  skip
  let value ← if ← isAt .semicolon then pure none else pure (some (← Expr.parse))
  return .returnStmt (← h.finish) value

/-- Reads a wait statement. -/
def parseWait (h : Head) : Parse SeqStmt := do
  skip
  let signals ← if ← accept .kwOn then sepBy .comma Expr.parseName else pure []
  let cond ← if ← accept .kwUntil then pure (some (← Expr.parse)) else pure none
  let time ← if ← accept .kwFor then pure (some (← Expr.parse)) else pure none
  return .waitStmt (← h.finish) signals cond time

/-- Reads a report statement. -/
def parseReport (h : Head) : Parse SeqStmt := do
  skip
  let message ← Expr.parse
  let severity ← if ← accept .kwSeverity then pure (some (← Expr.parse)) else pure none
  return .reportStmt (← h.finish) message severity

/-- Reads an assignment or a call. -/
def parseNamed (h : Head) : Parse (Option SeqStmt) := do
  if !(← isAtAny [.ident, .extIdent, .lParen]) then
    faultGot .expectStatement "expected a sequential statement"
    resyncTo stops
    return none
  let target ← Expr.parseName
  if ← accept .ltEq then
    let waveforms ← CondWaveform.parseArms
    return some (.signalAssign (← h.finish) target waveforms)
  else if ← accept .varAssign then
    let value ← Expr.parse
    return some (.varAssign (← h.finish) target value)
  else return some (.call (← h.finish) target)

/-! ## One level of nesting -/

section

variable (block : Parse (List SeqStmt))

/-- Reads the statements of a branch. -/
def parseBranch (cond : Option Expr) : Parse IfBranch := do
  let stmts ← block
  return ⟨cond, stmts, ← Parse.tail⟩

/-- Reads a condition, `then` and the statements of a branch. -/
def parseCondBranch : Parse IfBranch := do
  let cond ← Expr.parse
  keyword .kwThen
  parseBranch block (some cond)

/-- Reads an if statement. -/
def parseIf (h : Head) : Parse SeqStmt := do
  skip
  let first ← parseCondBranch block
  let others ← fun s => afterEachN .kwElsif (parseCondBranch block) s.size s
  let last ← if ← accept .kwElse then pure [← parseBranch block none] else pure []
  let endLabel ← endClause h.label [.kwIf]
  return .ifStmt (h.withInline (← inline)) (first :: others ++ last) endLabel

/-- Reads an alternative of a case statement. -/
def parseAlt : Parse CaseAlt := do
  let trivia ← rowTrivia
  skip
  let choices ← Expr.parseChoices
  expect_ .arrow .unexpectedToken "expected '=>' after case choices"
  let trivia ← withInline trivia
  return ⟨trivia, choices, ← block⟩

/-- Reads alternatives as long as `when` follows. -/
def parseAltsN : Nat → Parse (List CaseAlt)
  | 0 => giveUp []
  | fuel + 1 => do
    if !(← isAt .kwWhen) then return []
    let alt ← parseAlt block
    return alt :: (← parseAltsN fuel)

/-- Reads a case statement. -/
def parseCase (h : Head) : Parse SeqStmt := do
  skip
  let matching ← accept .question
  let selector ← Expr.parse
  keyword .kwIs
  let alts ← fun s => parseAltsN block s.size s
  let tail ← Parse.tail
  keyword .kwEnd
  keyword .kwCase
  if matching then expect_ .question .unexpectedToken "expected '?' after 'end case'"
  let endLabel ← optLabel
  checkEndLabel endLabel h.label
  semicolon
  return .caseStmt (h.withInline (← inline)) matching selector alts endLabel tail

/-- Reads what controls a loop. -/
def parseScheme : Parse LoopScheme := do
  if ← accept .kwFor then
    let param ← ident
    keyword .kwIn
    return .forIn param (← Expr.parseRange)
  else if ← accept .kwWhile then return .while_ (← Expr.parse)
  else return .forever

/-- Reads a loop. -/
def parseLoop (h : Head) : Parse SeqStmt := do
  let scheme ← parseScheme
  keyword .kwLoop
  let stmts ← block
  let tail ← Parse.tail
  let endLabel ← endClause h.label [.kwLoop]
  return .loop (h.withInline (← inline)) scheme stmts endLabel tail

/-- Reads a statement; nothing comes of one that cannot be read. -/
def parseWith : Parse (Option SeqStmt) := do
  let trivia ← rowTrivia
  let h : Head := ⟨trivia, ← Head.parseLabel⟩
  match ← kind with
  | .kwIf => some <$> parseIf block h
  | .kwCase => some <$> parseCase block h
  | .kwFor | .kwWhile | .kwLoop => some <$> parseLoop block h
  | .kwNext | .kwExit => some <$> parseLoopControl h
  | .kwReturn => some <$> parseReturn h
  | .kwNull => do
    skip
    return some (.nullStmt (← h.finish))
  | .kwWait => some <$> parseWait h
  | .kwReport => some <$> parseReport h
  | .kwAssert => do
    let assertion ← Assertion.parse false
    return some (.assertStmt (← h.finish) assertion)
  | _ => parseNamed h

end

/-! ## All levels -/

/-- Reads statements, at most `n` levels deep. -/
def parseBlockN : Nat → Parse (List SeqStmt)
  | 0 => giveUp []
  | n + 1 => many stops (parseWith (parseBlockN n))

/-- Reads statements up to `end`, `elsif`, `else` or `when`. -/
def parseBlock : Parse (List SeqStmt) := fun s => parseBlockN s.size s

end SeqStmt

end VhdlStyle
