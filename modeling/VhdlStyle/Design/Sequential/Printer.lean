import VhdlStyle.Design.Sequential.Basic
import VhdlStyle.Design.Interface.Printer

/-! # Printing sequential statements -/

namespace VhdlStyle.Printer

/-! ## Parts shared with concurrent statements -/

/-- A statement after its label. -/
def labeled (p : Printer) (label : Bytes) (body : Doc) : Doc :=
  if label.isEmpty then body else .concat [p.name label, .text " : ", body]

/-- The end of a compound statement; the label stands only behind labelled ones. -/
def stmtEnd (p : Printer) (words : List Doc) (endLabel label : Bytes) : Doc :=
  let shown := if label.isEmpty then [] else [.space, p.name (endLabel.orElse label)]
  .concat ([p.keyword "end", .space] ++ words ++ shown ++ [.text ";"])

/-- One arm of a conditional assignment. -/
def condWaveform (p : Printer) (w : CondWaveform) : Doc :=
  .concat (p.exprList w.waveform :: p.clause "when" p.expr w.cond)

/-- A signal assignment; each further arm may go on a line of its own. -/
def signalAssign (p : Printer) (target : Expr) (arms : List CondWaveform) : Doc :=
  let body := Doc.join (.concat [.line, p.keyword "else", .space]) (arms.map p.condWaveform)
  .concat [.group (.indent 1 (.concat [p.expr target, .text " <= ", body])), .text ";"]

/-- An assertion. -/
def assertion (p : Printer) (a : Assertion) : Doc :=
  let postponed := if a.postponed then [p.keyword "postponed", .space] else []
  let part (word : Bytes) : Option Expr → List Doc
    | none => []
    | some x => [.line, p.keyword word, .space, p.expr x]
  .concat [.group (.indent 1 (.concat (postponed ++ [p.keyword "assert", .space, p.expr a.cond] ++
    part "report" a.report ++ part "severity" a.severity))), .text ";"]

/-- What controls a loop. -/
def loopScheme (p : Printer) : LoopScheme → List Doc
  | .forIn param range =>
    [p.keyword "for", .space, p.name param, .space, p.keyword "in", .space, p.value range, .space]
  | .while_ cond => [p.keyword "while", .space, p.value cond, .space]
  | .forever => []

/-- The words before the statements of a branch: `if`, `elsif` or `else`. -/
def branchHead (p : Printer) (first : Bool) (cond : Option Expr) : List Doc :=
  match cond with
  | some x => [p.keyword (if first then "if" else "elsif"), .space, p.value x, .space]
  | none => [p.keyword "else"]

/-! ## Statements -/

mutual

/-- A statement. -/
def seqStmt (p : Printer) : SeqStmt → Doc
  | .signalAssign h target arms => p.labeled h.label (p.signalAssign target arms)
  | .varAssign h target x =>
    p.labeled h.label (.concat [p.expr target, .text " := ", p.value x, .text ";"])
  | .ifStmt h branches endLabel =>
    p.labeled h.label (.concat (ifBranches p true branches ++
      [.hardLine, p.stmtEnd [p.keyword "if"] endLabel h.label]))
  | .caseStmt h matching selector alts endLabel tail =>
    let mark := if matching then [.text "?"] else []
    p.labeled h.label (.concat (p.keyword "case" :: mark ++
      [.space, p.value selector, .space, p.keyword "is",
        ((caseAlts p {} alts).comments tail).nest, .hardLine,
        p.stmtEnd (p.keyword "case" :: mark) endLabel h.label]))
  | .loop h scheme stmts endLabel tail =>
    p.labeled h.label (.concat (p.loopScheme scheme ++
      [p.keyword "loop", ((seqBlock p {} stmts).comments tail).nest, .hardLine,
        p.stmtEnd [p.keyword "loop"] endLabel h.label]))
  | .loopControl h word loopLabel cond =>
    let target := if loopLabel.isEmpty then [] else [.space, p.name loopLabel]
    p.labeled h.label (.concat (p.keyword word :: target ++ p.clause "when" p.value cond ++
      [.text ";"]))
  | .returnStmt h x =>
    let result := match x with
      | some x => [.space, p.value x]
      | none => []
    p.labeled h.label (.concat (p.keyword "return" :: result ++ [.text ";"]))
  | .nullStmt h => p.labeled h.label (.concat [p.keyword "null", .text ";"])
  | .waitStmt h signals cond time =>
    let on := if signals.isEmpty then []
      else [.space, p.keyword "on", .space, p.exprList signals]
    p.labeled h.label (.concat (p.keyword "wait" :: on ++ p.clause "until" p.value cond ++
      p.clause "for" p.expr time ++ [.text ";"]))
  | .reportStmt h message severity =>
    p.labeled h.label (.concat ([p.keyword "report", .space, p.value message] ++
      p.clause "severity" p.expr severity ++ [.text ";"]))
  | .assertStmt h a => p.labeled h.label (p.assertion a)
  | .call h callee => p.labeled h.label (.concat [p.value callee, .text ";"])

/-- Statements as rows of a block. -/
def seqBlock (p : Printer) (b : Block) : List SeqStmt → Block
  | [] => b
  | s :: rest => seqBlock p (b.row s.head.trivia (seqStmt p s)) rest

/-- The arms of an if statement. -/
def ifBranches (p : Printer) (first : Bool) : List IfBranch → List Doc
  | [] => []
  | .mk cond stmts tail :: rest =>
    (if first then [] else [.hardLine]) ++ p.branchHead first cond ++
      (if cond.isSome then [p.keyword "then"] else []) ++
      [((seqBlock p {} stmts).comments tail).nest] ++ ifBranches p false rest

/-- The alternatives of a case statement. -/
def caseAlts (p : Printer) (b : Block) : List CaseAlt → Block
  | [] => b
  | .mk t choices stmts :: rest =>
    caseAlts p ((b.leading t).add (.concat [p.keyword "when", .space, p.choices choices,
      .text " =>", Doc.inline t.inline, (seqBlock p {} stmts).nest])) rest

end

end VhdlStyle.Printer
