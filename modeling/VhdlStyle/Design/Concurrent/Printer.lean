import VhdlStyle.Design.Concurrent.Basic
import VhdlStyle.Design.Decl.Printer

/-! # Printing concurrent statements -/

namespace VhdlStyle.Printer

/-- A selected assignment. -/
def selectedAssign (p : Printer) (selector target : Expr) (arms : List SelectedWaveform) : Doc :=
  let arm (a : SelectedWaveform) : Doc :=
    .concat [p.exprList a.waveform, .space, p.keyword "when", .space, p.choices a.choices]
  .group (.concat [p.keyword "with", .space, p.expr selector, .space, p.keyword "select", .space,
    p.expr target, .text " <=",
    .indent 1 (.concat [.line, Doc.join (.concat [.text ",", .line]) (arms.map arm)]),
    .text ";"])

/-- A process. -/
def process (p : Printer) (label : Bytes) (b : ProcessBody) : Doc :=
  let postponed := if b.postponed then [p.keyword "postponed", .space] else []
  let sensitivity := if b.sensitivity.isEmpty then []
    else [.space, parens (p.exprs b.sensitivity)]
  let is_ := if b.hasIs then [.space, p.keyword "is"] else []
  let word : Bytes := if b.postponed then "postponed process" else "process"
  .concat (postponed ++ [p.keyword "process"] ++ sensitivity ++ is_ ++
    [((p.declBlock {} b.decls).comments b.declTail).nest, .hardLine, p.keyword "begin",
      ((p.seqBlock {} b.stmts).comments b.tail).nest, .hardLine,
      p.stmtEnd [p.keyword word] b.endLabel label])

/-- An instantiation; its maps may go on lines of their own. -/
def instantiation (p : Printer) (i : Instantiation) : Doc :=
  let word := if i.unitKind.isEmpty then [] else [p.keyword i.unitKind, .space]
  let arch := if i.arch.isEmpty then [] else [.text "(", p.name i.arch, .text ")"]
  let map (words : Bytes) : Option MapList → List Doc
    | none => []
    | some l => [.line, p.mapList words l]
  .concat [.group (.concat [.concat (word ++ [p.expr i.unit] ++ arch),
    .indent 1 (.concat (map "generic map" i.genericMap ++ map "port map" i.portMap))]), .text ";"]

mutual

/-- A statement. -/
def concStmt (p : Printer) : ConcStmt → Doc
  | .assign h target arms => p.labeled h.label (p.signalAssign target arms)
  | .selectedAssign h selector target arms =>
    p.labeled h.label (p.selectedAssign selector target arms)
  | .process h body => p.labeled h.label (p.process h.label body)
  | .instantiation h inst => p.labeled h.label (p.instantiation inst)
  | .forGenerate h param range body endLabel =>
    p.labeled h.label (.concat [p.keyword "for", .space, p.name param, .space, p.keyword "in",
      .space, p.value range, .space, p.keyword "generate", generateBody p body, .hardLine,
      p.stmtEnd [p.keyword "generate"] endLabel h.label])
  | .ifGenerate h branches endLabel =>
    p.labeled h.label (.concat (generateBranches p true branches ++
      [.hardLine, p.stmtEnd [p.keyword "generate"] endLabel h.label]))
  | .assertStmt h a => p.labeled h.label (p.assertion a)
  | .call h callee => p.labeled h.label (.concat [p.value callee, .text ";"])

/-- Statements as rows of a block. -/
def concBlock (p : Printer) (b : Block) : List ConcStmt → Block
  | [] => b
  | s :: rest => concBlock p (b.row s.head.trivia (concStmt p s)) rest

/-- The inside of a generate statement. -/
def generateBody (p : Printer) : GenerateBody → Doc
  | .mk decls hasBegin stmts tail =>
    let front := if hasBegin then [(p.declBlock {} decls).nest, .hardLine, p.keyword "begin"]
      else []
    .concat (front ++ [((concBlock p {} stmts).comments tail).nest])

/-- The arms of an if generate statement. -/
def generateBranches (p : Printer) (first : Bool) : List GenerateBranch → List Doc
  | [] => []
  | .mk cond body :: rest =>
    (if first then [] else [.hardLine]) ++ p.branchHead first cond ++
      (if cond.isSome then [] else [.space]) ++
      [p.keyword "generate", generateBody p body] ++ generateBranches p false rest

end

end VhdlStyle.Printer
