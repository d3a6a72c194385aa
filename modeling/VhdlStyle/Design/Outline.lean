import VhdlStyle.Design.Unit.Basic

/-! # Outlines

An outline has one line for each row of a design file, indented by depth, with the kind of the
row, its name or label, and the comments bound to it. -/

namespace VhdlStyle.Outline

/-- One line: the kind of the row, its name if it has one, and marks for its comments. -/
def line (depth : Nat) (kind name : Bytes) (t : RowTrivia) : Bytes :=
  let named := if name.isEmpty then kind else List.flatten [kind, " ", name]
  let comments := if t.leading.isEmpty then []
    else List.flatten [" [", Bytes.ofNat t.leading.length, " comments]"]
  let inline : Bytes := if t.inline.isEmpty then [] else " [inline]"
  List.flatten [List.replicate (2 * depth) Bytes.space, named, comments, inline, "\n"]

/-- Names parted by commas. -/
def names (ns : List Bytes) : Bytes := Bytes.join ", " ns

/-- The rows of an interface list. -/
def interface (depth : Nat) (kind : Bytes) : Option InterfaceList → Bytes
  | none => []
  | some list => list.items.flatMap fun i => line depth kind (names i.names) i.trivia

/-- The kind of a loop. -/
def loopKind : LoopScheme → Bytes
  | .forIn .. => "ForLoop"
  | .while_ _ => "WhileLoop"
  | .forever => "Loop"

mutual

/-- A sequential statement and what is inside it. -/
def seqStmt (depth : Nat) : SeqStmt → Bytes
  | .signalAssign h .. => line depth "SignalAssign" h.label h.trivia
  | .varAssign h .. => line depth "VarAssign" h.label h.trivia
  | .ifStmt h branches _ =>
    line depth "IfStmt" h.label h.trivia ++ ifBranches (depth + 1) branches
  | .caseStmt h _ _ alts _ _ =>
    line depth "CaseStmt" h.label h.trivia ++ caseAlts (depth + 1) alts
  | .loop h scheme stmts _ _ =>
    line depth (loopKind scheme) h.label h.trivia ++ seqStmts (depth + 1) stmts
  | .loopControl h .. => line depth "LoopControl" h.label h.trivia
  | .returnStmt h _ => line depth "ReturnStmt" h.label h.trivia
  | .nullStmt h => line depth "NullStmt" h.label h.trivia
  | .waitStmt h .. => line depth "WaitStmt" h.label h.trivia
  | .reportStmt h .. => line depth "ReportStmt" h.label h.trivia
  | .assertStmt h _ => line depth "AssertStmt" h.label h.trivia
  | .call h _ => line depth "ProcedureCall" h.label h.trivia

/-- Sequential statements. -/
def seqStmts (depth : Nat) : List SeqStmt → Bytes
  | [] => []
  | s :: rest => seqStmt depth s ++ seqStmts depth rest

/-- The statements of the arms of an if statement. -/
def ifBranches (depth : Nat) : List IfBranch → Bytes
  | [] => []
  | .mk _ stmts _ :: rest => seqStmts depth stmts ++ ifBranches depth rest

/-- The statements of the alternatives of a case statement. -/
def caseAlts (depth : Nat) : List CaseAlt → Bytes
  | [] => []
  | .mk _ _ stmts :: rest => seqStmts depth stmts ++ caseAlts depth rest

end

mutual

/-- A declaration and what is inside it. -/
def decl (depth : Nat) : Decl → Bytes
  | .object t _ _ ns _ _ => line depth "ObjectDecl" (names ns) t
  | .type t name _ => line depth "TypeDecl" name t
  | .subtype t name _ => line depth "SubtypeDecl" name t
  | .alias t name _ _ => line depth "AliasDecl" name t
  | .component t name generics ports _ _ =>
    List.flatten [line depth "ComponentDecl" name t,
      interface (depth + 1) "GenericParam" generics, interface (depth + 1) "Port" ports]
  | .attribute t name _ => line depth "AttributeDecl" name t
  | .attributeSpec t name _ _ _ => line depth "AttributeSpec" name t
  | .subprogram t spec => line depth "SubprogramDecl" spec.name t
  | .subprogramBody t spec ds _ stmts _ _ =>
    line depth "SubprogramBody" spec.name t ++ decls (depth + 1) ds ++ seqStmts (depth + 1) stmts
  | .use clause => line depth "UseClause" [] clause.trivia
  | .raw t _ => line depth "RawDecl" [] t

/-- Declarations. -/
def decls (depth : Nat) : List Decl → Bytes
  | [] => []
  | d :: rest => decl depth d ++ decls depth rest

end

mutual

/-- A concurrent statement and what is inside it. -/
def concStmt (depth : Nat) : ConcStmt → Bytes
  | .assign h .. => line depth "ConcurrentAssign" h.label h.trivia
  | .selectedAssign h .. => line depth "SelectedAssign" h.label h.trivia
  | .process h body =>
    line depth "Process" h.label h.trivia ++ decls (depth + 1) body.decls ++
      seqStmts (depth + 1) body.stmts
  | .instantiation h _ => line depth "Instance" h.label h.trivia
  | .forGenerate h _ _ body _ =>
    line depth "ForGenerate" h.label h.trivia ++ generateBody (depth + 1) body
  | .ifGenerate h branches _ =>
    line depth "IfGenerate" h.label h.trivia ++ generateBranches (depth + 1) branches
  | .assertStmt h _ => line depth "AssertStmt" h.label h.trivia
  | .call h _ => line depth "ProcedureCall" h.label h.trivia

/-- Concurrent statements. -/
def concStmts (depth : Nat) : List ConcStmt → Bytes
  | [] => []
  | s :: rest => concStmt depth s ++ concStmts depth rest

/-- The inside of a generate statement. -/
def generateBody (depth : Nat) : GenerateBody → Bytes
  | .mk ds _ stmts _ => decls depth ds ++ concStmts depth stmts

/-- The insides of the arms of an if generate statement. -/
def generateBranches (depth : Nat) : List GenerateBranch → Bytes
  | [] => []
  | .mk _ body :: rest => generateBody depth body ++ generateBranches depth rest

end

/-- A context item. -/
def contextItem : ContextItem → Bytes
  | .library t _ => line 0 "LibraryClause" [] t
  | .use clause => line 0 "UseClause" [] clause.trivia

/-- The kind of a unit. -/
def unitKind : UnitBody → Bytes
  | .entity .. => "Entity"
  | .architecture .. => "Architecture"
  | .package .. => "Package"
  | .packageBody .. => "PackageBody"

/-- The inside of a unit. -/
def unitBody : UnitBody → Bytes
  | .entity generics ports ds _ stmts =>
    List.flatten [interface 1 "GenericParam" generics, interface 1 "Port" ports, decls 1 ds,
      concStmts 1 stmts]
  | .architecture _ ds _ stmts => decls 1 ds ++ concStmts 1 stmts
  | .package generics ds => interface 1 "GenericParam" generics ++ decls 1 ds
  | .packageBody ds => decls 1 ds

/-- A unit after its context clause. -/
def designUnit (u : DesignUnit) : Bytes :=
  List.flatten [u.context.flatMap contextItem, line 0 (unitKind u.body) u.name u.trivia,
    unitBody u.body]

end VhdlStyle.Outline

namespace VhdlStyle

/-- The outline of a design file. -/
def DesignFile.outline (f : DesignFile) : Bytes :=
  f.units.flatMap Outline.designUnit ++
  if f.trailing.isEmpty then []
  else List.flatten ["trailing comments: ", Bytes.ofNat f.trailing.length, "\n"]

end VhdlStyle
