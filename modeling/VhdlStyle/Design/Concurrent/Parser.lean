import VhdlStyle.Design.Decl.Parser
import VhdlStyle.Design.Concurrent.Basic

/-! # Reading concurrent statements

The statements inside a generate statement are read by the parameter `block`, so that each level
of nesting is one unfolding. -/

namespace VhdlStyle.ConcStmt

open Parse

/-! ## Statements without nesting -/

/-- Reads the names a process is sensitive to, if a list follows. -/
def parseSensitivity : Parse (List Expr) := do
  if !(← accept .lParen) then return []
  let names ← match ← accept? .kwAll with
    | some t => pure [.leaf (Expr.leafOf t)]
    | none => sepBy .comma Expr.parseName
  expect_ .rParen .unclosedParen "expected ')' to close sensitivity list"
  return names

/-- Reads a process. -/
def parseProcess (h : Head) (postponed : Bool) : Parse ConcStmt := do
  skip
  let sensitivity ← parseSensitivity
  let hasIs ← accept .kwIs
  let decls ← Decl.parsePart
  let declTail ← Parse.tail
  keyword .kwBegin
  let stmts ← SeqStmt.parseBlock
  let tail ← Parse.tail
  keyword .kwEnd
  let _ ← accept .kwPostponed
  keyword .kwProcess
  let endLabel ← optLabel
  checkEndLabel endLabel h.label
  semicolon
  return .process (h.withInline (← inline))
    { postponed, sensitivity, hasIs, decls, declTail, stmts, endLabel, tail }

/-- Reads the maps of an instantiation and what follows them. -/
def parseMaps (h : Head) (inst : Instantiation) : Parse ConcStmt := do
  if h.label.isEmpty then
    fault .expectIdentifier "component instantiation requires a label"
  let genericMap ← if ← isAt .kwGeneric then pure (some (← MapList.parse)) else pure none
  let portMap ← if ← isAt .kwPort then pure (some (← MapList.parse)) else pure none
  return .instantiation (← h.finish) { inst with genericMap, portMap }

/-- Reads an instantiation that names the kind of its unit. -/
def parseInstance (h : Head) : Parse ConcStmt := do
  let word ← advance
  let unit ← Expr.parseSelectedName
  let arch ← if ← accept .lParen then do
      let arch ← ident
      expect_ .rParen .unclosedParen "expected ')' after architecture name"
      pure arch
    else pure []
  parseMaps h { unitKind := word.text, unit, arch }

/-- Reads an arm of a selected assignment. -/
def parseSelectedArm : Parse SelectedWaveform := do
  let waveform ← CondWaveform.parseWaveform
  keyword .kwWhen
  return ⟨waveform, ← Expr.parseChoices⟩

/-- Reads a selected assignment. -/
def parseSelected (h : Head) : Parse ConcStmt := do
  skip
  let selector ← Expr.parse
  keyword .kwSelect
  let target ← Expr.parseName
  expect_ .ltEq .unexpectedToken "expected '<='"
  let arms ← sepBy .comma parseSelectedArm
  return .selectedAssign (← h.finish) selector target arms

/-- Skips to the end of a block statement; `depth` counts the open ones, `afterEnd` says that the
last token was `end`. -/
def skipBlockN : Nat → Int → Bool → Parse Unit
  | 0, _, _ => giveUp ()
  | fuel + 1, depth, afterEnd => do
    let k ← kind
    if k == .eof then return ()
    else if k == .kwBlock && !afterEnd then
      skip
      skipBlockN fuel (depth + 1) false
    else if k == .kwEnd && (← kindAhead 1) == .kwBlock then
      if depth - 1 == 0 then resyncTo []
      else
        skip
        skipBlockN fuel (depth - 1) true
    else
      skip
      skipBlockN fuel depth (k == .kwEnd)

/-- Reads an assignment, a call, or an instantiation of a component. -/
def parseNamed (h : Head) : Parse (Option ConcStmt) := do
  if !(← isAtAny [.ident, .extIdent, .lParen]) then
    faultGot .expectStatement "expected a concurrent statement"
    resyncTo [.kwEnd]
    return none
  let target ← Expr.parseName
  if ← isAtAny [.kwGeneric, .kwPort] then some <$> parseMaps h { unit := target }
  else if ← accept .ltEq then
    let waveforms ← CondWaveform.parseArms
    return some (.assign (← h.finish) target waveforms)
  else return some (.call (← h.finish) target)

/-! ## One level of nesting -/

/-- A generate statement has to have a label. -/
def checkGenerateLabel (h : Head) : Parse Unit := do
  if h.label.isEmpty then fault .expectIdentifier "generate statement requires a label"

section

variable (block : Parse (List ConcStmt))

/-- Reads the inside of a generate statement; declarations require `begin`. -/
def parseBody : Parse GenerateBody := do
  let (decls, hasBegin) ← if ← isAtAny Decl.starts then do
      let decls ← Decl.parsePart
      keyword .kwBegin
      pure (decls, true)
    else do pure ([], ← accept .kwBegin)
  let stmts ← block
  return ⟨decls, hasBegin, stmts, ← Parse.tail⟩

/-- Reads a for generate statement. -/
def parseForGenerate (h : Head) : Parse ConcStmt := do
  checkGenerateLabel h
  skip
  let param ← ident
  keyword .kwIn
  let range ← Expr.parseRange
  keyword .kwGenerate
  let body ← parseBody block
  let endLabel ← endClause h.label [.kwGenerate]
  return .forGenerate (h.withInline (← inline)) param range body endLabel

/-- Reads a condition, `generate` and the body of a branch. -/
def parseCondBranch : Parse GenerateBranch := do
  let cond ← Expr.parse
  keyword .kwGenerate
  return ⟨some cond, ← parseBody block⟩

/-- Reads an if generate statement. -/
def parseIfGenerate (h : Head) : Parse ConcStmt := do
  checkGenerateLabel h
  skip
  let first ← parseCondBranch block
  let others ← fun s => afterEachN .kwElsif (parseCondBranch block) s.size s
  let last ← if ← accept .kwElse then do
      keyword .kwGenerate
      pure [⟨none, ← parseBody block⟩]
    else pure []
  let endLabel ← endClause h.label [.kwGenerate]
  return .ifGenerate (h.withInline (← inline)) (first :: others ++ last) endLabel

/-- Reads a statement; nothing comes of one that cannot be read. -/
def parseWith : Parse (Option ConcStmt) := do
  let trivia ← rowTrivia
  let h : Head := ⟨trivia, ← Head.parseLabel⟩
  let postponed ← accept .kwPostponed
  match ← kind with
  | .kwProcess => some <$> parseProcess h postponed
  | .kwAssert =>
    let assertion ← Assertion.parse postponed
    return some (.assertStmt (← h.finish) assertion)
  | .kwWith => some <$> parseSelected h
  | .kwFor => some <$> parseForGenerate block h
  | .kwIf => some <$> parseIfGenerate block h
  | .kwEntity | .kwComponent | .kwConfiguration => some <$> parseInstance h
  | .kwBlock =>
    fault .expectStatement "block statements are not supported"
    fun s => skipBlockN s.size 0 false s
    return none
  | _ => parseNamed h

end

/-! ## All levels -/

/-- Reads statements, at most `n` levels deep. -/
def parseBlockN : Nat → Parse (List ConcStmt)
  | 0 => giveUp []
  | n + 1 => many [.kwEnd, .kwElsif, .kwElse] (parseWith (parseBlockN n))

/-- Reads statements up to `end`, `elsif` or `else`. -/
def parseBlock : Parse (List ConcStmt) := fun s => parseBlockN s.size s

end VhdlStyle.ConcStmt
