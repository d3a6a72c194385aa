import VhdlStyle.Design.Unit.Basic
import VhdlStyle.Text.JsonTree

/-! # Design trees as records

The whole tree of a design file for other tools. Every part of the tree is a record with the name of
its kind; members that are empty, missing or false are left out. -/

namespace VhdlStyle

namespace Record

/-- The members of a record that may be left out. -/
abbrev Members := List (String × Option JsonTree)

/-- A record of a kind. -/
def node (kind : String) (members : Members) : JsonTree :=
  .object (.mk "node" (.text kind) :: members.filterMap fun (name, value) =>
    value.map (.mk (Bytes.ofString name)))

/-- A truth value that is left out when it is false. -/
def flag? (b : Bool) : Option JsonTree := if b then some (.bool true) else none

/-- A list that is left out when it is empty. -/
def list? (items : List JsonTree) : Option JsonTree :=
  if items.isEmpty then none else some (.list items)

/-- A text that is left out when it is empty. -/
def text? (t : Bytes) : Option JsonTree := JsonTree.text? t

/-- Names; an empty one has no value. -/
def names? (ns : List Bytes) : Option JsonTree := list? (ns.map fun n => (text? n).getD .null)

/-! ## Comments -/

/-- Comments. -/
def comments? (cs : List Comment) : Option JsonTree :=
  list? (cs.map fun c =>
    node "Comment" [("Text", text? c.text), ("BlankBefore", flag? c.blankBefore)])

/-- What is bound to a row. -/
def trivia? (t : RowTrivia) : Option JsonTree :=
  if t.leading.isEmpty && !t.blankBefore && t.inline.isEmpty then none
  else some (node "Trivia" [("Leading", comments? t.leading),
    ("BlankBefore", flag? t.blankBefore), ("Inline", text? t.inline)])

/-! ## Expressions -/

/-- One token of an expression. -/
def leaf (l : Leaf) : JsonTree :=
  node "TokenExpr" [("Kind", some (.text l.kind.name)), ("Text", text? l.text)]

/-- An operator. -/
def operator (l : Leaf) : Members :=
  [("Op", some (.text l.kind.name)), ("Text", text? l.text)]

mutual

/-- An expression. -/
def expr : Expr → JsonTree
  | .leaf l => leaf l
  | .unary op x => node "UnaryExpr" (operator op ++ [("X", some (expr x))])
  | .binary op x y =>
    node "BinaryExpr" (operator op ++ [("X", some (expr x)), ("Y", some (expr y))])
  | .paren x => node "ParenExpr" [("X", some (expr x))]
  | .call f args => node "CallExpr" [("Fun", some (expr f)), ("Args", list? (assocs args))]
  | .selected x l => node "SelectedExpr" [("X", some (expr x)), ("Sel", some (leaf l))]
  | .attribute x l => node "AttributeExpr" [("X", some (expr x)), ("Attr", some (leaf l))]
  | .qualified m x => node "QualifiedExpr" [("Type", some (expr m)), ("X", some (expr x))]
  | .aggregate es => node "Aggregate" [("Elems", list? (assocs es))]

/-- Expressions. -/
def exprs : List Expr → List JsonTree
  | [] => []
  | x :: rest => expr x :: exprs rest

/-- Elements of a list. -/
def assocs : List Assoc → List JsonTree
  | [] => []
  | .mk choices actual :: rest =>
    node "Association" [("Choices", list? (exprs choices)), ("Actual", some (expr actual))] ::
      assocs rest

end

/-- An expression that may be missing. -/
def expr? (x : Option Expr) : Option JsonTree := x.map expr

/-- Expressions that are left out when there are none. -/
def exprs? (xs : List Expr) : Option JsonTree := list? (exprs xs)

/-! ## Interfaces -/

/-- A constraint. -/
def constraint : Constraint → JsonTree
  | .index ranges => node "IndexConstraint" [("Ranges", exprs? ranges)]
  | .range r => node "RangeConstraint" [("Range", some (expr r))]

/-- A subtype indication. -/
def indication (s : SubtypeIndication) : JsonTree :=
  node "Subtype" [("Resolution", expr? s.resolution), ("TypeMark", some (expr s.mark)),
    ("Constraint", s.constraint.map constraint)]

/-- A row of an interface list. -/
def interfaceItem (kind : String) (i : InterfaceItem) : JsonTree :=
  node kind [("Trivia", trivia? i.trivia), ("Class", text? i.objectClass),
    ("Names", names? i.names), ("Mode", text? i.mode),
    ("Subtype", some (indication i.indication)), ("Default", expr? i.default)]

/-- The generics. -/
def generics? (l : Option InterfaceList) : Option JsonTree := l.map fun l =>
  node "GenericClause" [("Params", list? (l.items.map (interfaceItem "GenericParam"))),
    ("Tail", comments? l.tail)]

/-- The ports. -/
def ports? (l : Option InterfaceList) : Option JsonTree := l.map fun l =>
  node "PortClause" [("Ports", list? (l.items.map (interfaceItem "Port"))),
    ("Tail", comments? l.tail)]

/-- A generic or port map. -/
def map? (l : Option MapList) : Option JsonTree := l.map fun l =>
  node "AssocList" [
    ("Items", list? (l.items.map fun m =>
      node "Association" [("Trivia", trivia? m.trivia), ("Choices", exprs? m.assoc.choices),
        ("Actual", some (expr m.assoc.actual))])),
    ("Tail", comments? l.tail)]

/-! ## Sequential statements -/

/-- What every statement starts with. -/
def head (h : Head) : Members := [("Trivia", trivia? h.trivia), ("Label", text? h.label)]

/-- The arms of a conditional assignment. -/
def waveforms? (ws : List CondWaveform) : Option JsonTree :=
  list? (ws.map fun w => node "CondWaveform" [("Waveform", exprs? w.waveform),
    ("Cond", expr? w.cond)])

/-- An assertion. -/
def assertion (h : Head) (a : Assertion) : JsonTree :=
  node "AssertStmt" (head h ++ [("Postponed", flag? a.postponed), ("Cond", some (expr a.cond)),
    ("Report", expr? a.report), ("Severity", expr? a.severity)])

/-- The kind of a loop and what controls it. -/
def loopScheme : LoopScheme → String × Members
  | .forIn p r => ("ForLoop", [("Param", text? p), ("Range", some (expr r))])
  | .while_ c => ("WhileLoop", [("Cond", some (expr c))])
  | .forever => ("Loop", [])

mutual

/-- A sequential statement. -/
def seqStmt : SeqStmt → JsonTree
  | .signalAssign h t ws => node "SignalAssign" (head h ++ [("Target", some (expr t)),
      ("Waveforms", waveforms? ws)])
  | .varAssign h t v => node "VarAssign" (head h ++ [("Target", some (expr t)),
      ("Value", some (expr v))])
  | .ifStmt h bs e => node "IfStmt" (head h ++ [("Branches", list? (ifBranches bs)),
      ("EndLabel", text? e)])
  | .caseStmt h m s as e t => node "CaseStmt" (head h ++ [("Matching", flag? m),
      ("Selector", some (expr s)), ("Alts", list? (caseAlts as)), ("EndLabel", text? e),
      ("Tail", comments? t)])
  | .loop h scheme ss e t =>
    let (kind, control) := loopScheme scheme
    node kind (head h ++ control ++ [("Stmts", list? (seqStmts ss)), ("EndLabel", text? e),
      ("Tail", comments? t)])
  | .loopControl h k l c => node "LoopControl" (head h ++ [("Keyword", text? k),
      ("LoopLabel", text? l), ("Cond", expr? c)])
  | .returnStmt h v => node "ReturnStmt" (head h ++ [("Value", expr? v)])
  | .nullStmt h => node "NullStmt" (head h)
  | .waitStmt h o u f => node "WaitStmt" (head h ++ [("On", exprs? o), ("Until", expr? u),
      ("For", expr? f)])
  | .reportStmt h m s => node "ReportStmt" (head h ++ [("Message", some (expr m)),
      ("Severity", expr? s)])
  | .assertStmt h a => assertion h a
  | .call h c => node "ProcedureCall" (head h ++ [("Call", some (expr c))])

/-- Sequential statements. -/
def seqStmts : List SeqStmt → List JsonTree
  | [] => []
  | s :: rest => seqStmt s :: seqStmts rest

/-- The arms of an if statement. -/
def ifBranches : List IfBranch → List JsonTree
  | [] => []
  | .mk c ss t :: rest =>
    node "IfBranch" [("Cond", expr? c), ("Stmts", list? (seqStmts ss)), ("Tail", comments? t)] ::
      ifBranches rest

/-- The alternatives of a case statement. -/
def caseAlts : List CaseAlt → List JsonTree
  | [] => []
  | .mk t cs ss :: rest =>
    node "CaseAlt" [("Trivia", trivia? t), ("Choices", exprs? cs),
      ("Stmts", list? (seqStmts ss))] :: caseAlts rest

end

/-- Statements that are left out when there are none. -/
def seqStmts? (ss : List SeqStmt) : Option JsonTree := list? (seqStmts ss)

/-! ## Declarations -/

/-- A class of objects. -/
def objectClass : ObjectClass → JsonTree
  | .signal => .text "signal"
  | .constant => .text "constant"
  | .variable_ => .text "variable"
  | .shared => .text "shared"

/-- What a type is declared as. -/
def typeDef : TypeDef → JsonTree
  | .enum ls => node "EnumTypeDef" [("Literals", list? (ls.map leaf))]
  | .range r us => node "RangeTypeDef" [("Range", some (expr r)),
      ("Units", list? (us.map fun u => node "PhysicalUnit" [("Trivia", trivia? u.trivia),
        ("Name", text? u.name), ("Value", expr? u.value)]))]
  | .array is e => node "ArrayTypeDef" [("Indexes", exprs? is), ("Element", some (indication e))]
  | .record fs e t => node "RecordTypeDef" [
      ("Fields", list? (fs.map fun f => node "RecordField" [("Trivia", trivia? f.trivia),
        ("Names", names? f.names), ("Subtype", some (indication f.indication))])),
      ("EndLabel", text? e), ("Tail", comments? t)]
  | .access t => node "AccessTypeDef" [("Subtype", some (indication t))]

/-- The header of a subprogram. -/
def subprogramSpec (s : SubprogramSpec) : JsonTree :=
  node "SubprogramSpec" [("Kind", text? s.kind), ("Purity", text? s.purity),
    ("Name", text? s.name), ("Params", list? (s.params.map (interfaceItem "Port"))),
    ("Tail", comments? s.tail), ("Return", expr? s.result)]

/-- A use clause. -/
def useClause (c : UseClause) : JsonTree :=
  node "UseClause" [("Trivia", trivia? c.trivia), ("Names", exprs? c.names)]

/-- A token of a declaration that is kept as it is. -/
def rawToken (t : RawToken) : JsonTree :=
  node "RawToken" [("Text", text? t.text), ("IsKeyword", flag? t.isKeyword),
    ("IsIdent", flag? t.isIdent)]

mutual

/-- A declaration. -/
def decl : Decl → JsonTree
  | .object t c k ns s d => node "ObjectDecl" [("Trivia", trivia? t),
      ("Class", some (objectClass c)), ("Keyword", text? k), ("Names", names? ns),
      ("Subtype", some (indication s)), ("Default", expr? d)]
  | .type t n d => node "TypeDecl" [("Trivia", trivia? t), ("Name", text? n),
      ("Def", d.map typeDef)]
  | .subtype t n s => node "SubtypeDecl" [("Trivia", trivia? t), ("Name", text? n),
      ("Subtype", some (indication s))]
  | .alias t n s x => node "AliasDecl" [("Trivia", trivia? t), ("Name", text? n),
      ("Subtype", s.map indication), ("Target", some (expr x))]
  | .component t n g p e tail => node "ComponentDecl" [("Trivia", trivia? t), ("Name", text? n),
      ("Generics", generics? g), ("Ports", ports? p), ("EndLabel", text? e),
      ("Tail", comments? tail)]
  | .attribute t n m => node "AttributeDecl" [("Trivia", trivia? t), ("Name", text? n),
      ("TypeMark", some (expr m))]
  | .attributeSpec t n es c v => node "AttributeSpec" [("Trivia", trivia? t), ("Name", text? n),
      ("Entities", exprs? es), ("Class", text? c), ("Value", some (expr v))]
  | .subprogram t s => node "SubprogramDecl" [("Trivia", trivia? t),
      ("Spec", some (subprogramSpec s))]
  | .subprogramBody t s ds dt ss e tail => node "SubprogramBody" [("Trivia", trivia? t),
      ("Spec", some (subprogramSpec s)), ("Decls", list? (decls ds)), ("DeclTail", comments? dt),
      ("Stmts", seqStmts? ss), ("EndLabel", text? e), ("Tail", comments? tail)]
  | .use c => useClause c
  | .raw t ts => node "RawDecl" [("Trivia", trivia? t), ("Tokens", list? (ts.map rawToken))]

/-- Declarations. -/
def decls : List Decl → List JsonTree
  | [] => []
  | d :: rest => decl d :: decls rest

end

/-- Declarations that are left out when there are none. -/
def decls? (ds : List Decl) : Option JsonTree := list? (decls ds)

/-! ## Concurrent statements -/

/-- A process. -/
def process (h : Head) (b : ProcessBody) : JsonTree :=
  node "Process" (head h ++ [("Postponed", flag? b.postponed),
    ("Sensitivity", exprs? b.sensitivity), ("HasIs", flag? b.hasIs), ("Decls", decls? b.decls),
    ("DeclTail", comments? b.declTail), ("Stmts", seqStmts? b.stmts),
    ("EndLabel", text? b.endLabel), ("Tail", comments? b.tail)])

/-- An instantiation. -/
def instantiation (h : Head) (i : Instantiation) : JsonTree :=
  node "Instance" (head h ++ [("UnitKind", text? i.unitKind), ("Unit", some (expr i.unit)),
    ("Arch", text? i.arch), ("GenericMap", map? i.genericMap), ("PortMap", map? i.portMap)])

mutual

/-- A concurrent statement. -/
def concStmt : ConcStmt → JsonTree
  | .assign h t ws => node "ConcurrentAssign" (head h ++ [("Target", some (expr t)),
      ("Waveforms", waveforms? ws)])
  | .selectedAssign h s t as => node "SelectedAssign" (head h ++
      [("Selector", some (expr s)), ("Target", some (expr t)),
       ("Arms", list? (as.map fun a => node "SelectedWaveform" [("Waveform", exprs? a.waveform),
         ("Choices", exprs? a.choices)]))])
  | .process h b => process h b
  | .instantiation h i => instantiation h i
  | .forGenerate h p r b e => node "ForGenerate" (head h ++ [("Param", text? p),
      ("Range", some (expr r)), ("Body", some (generateBody b)), ("EndLabel", text? e)])
  | .ifGenerate h bs e => node "IfGenerate" (head h ++ [("Branches", list? (generateBranches bs)),
      ("EndLabel", text? e)])
  | .assertStmt h a => assertion h a
  | .call h c => node "ProcedureCall" (head h ++ [("Call", some (expr c))])

/-- Concurrent statements. -/
def concStmts : List ConcStmt → List JsonTree
  | [] => []
  | s :: rest => concStmt s :: concStmts rest

/-- The region inside a generate statement. -/
def generateBody : GenerateBody → JsonTree
  | .mk ds b ss t => node "GenerateBody" [("Decls", decls? ds), ("HasBegin", flag? b),
      ("Stmts", list? (concStmts ss)), ("Tail", comments? t)]

/-- The arms of an if generate statement. -/
def generateBranches : List GenerateBranch → List JsonTree
  | [] => []
  | .mk c b :: rest =>
    node "GenerateBranch" [("Cond", expr? c), ("Body", some (generateBody b))] ::
      generateBranches rest

end

/-- Statements that are left out when there are none. -/
def concStmts? (ss : List ConcStmt) : Option JsonTree := list? (concStmts ss)

/-! ## Units -/

/-- An item of a context clause. -/
def contextItem : ContextItem → JsonTree
  | .library t ns => node "LibraryClause" [("Trivia", trivia? t), ("Names", names? ns)]
  | .use c => useClause c

/-- The kind of a unit and what is special to it. -/
def unitBody : UnitBody → String × Members
  | .entity g p ds b ss => ("Entity", [("Generics", generics? g), ("Ports", ports? p),
      ("Decls", decls? ds), ("HasBegin", flag? b), ("Stmts", concStmts? ss)])
  | .architecture e ds dt ss => ("Architecture", [("EntityName", text? e), ("Decls", decls? ds),
      ("DeclTail", comments? dt), ("Stmts", concStmts? ss)])
  | .package g ds => ("Package", [("Generics", generics? g), ("Decls", decls? ds)])
  | .packageBody ds => ("PackageBody", [("Decls", decls? ds)])

/-- A design unit. -/
def designUnit (u : DesignUnit) : JsonTree :=
  let (kind, body) := unitBody u.body
  node kind ([("Trivia", trivia? u.trivia), ("Context", list? (u.context.map contextItem)),
    ("Name", text? u.name)] ++ body ++
    [("EndLabel", text? u.endLabel), ("Tail", comments? u.tail)])

end Record

/-- The tree of a design file. -/
def DesignFile.record (f : DesignFile) : JsonTree :=
  Record.node "DesignFile" [("Units", Record.list? (f.units.map Record.designUnit)),
    ("Trailing", Record.comments? f.trailing)]

end VhdlStyle
