import VhdlStyle.Design.Unit.Basic
import VhdlStyle.Design.Concurrent.Printer

/-! # Printing design units and files -/

namespace VhdlStyle

namespace Printer

/-- A context item. -/
def contextItem (p : Printer) : ContextItem → Doc
  | .library _ ns => .concat [p.keyword "library", .space, p.names ns, .text ";"]
  | .use clause => p.useClause clause

/-- A unit after its context clause. -/
def unitBody (p : Printer) (u : DesignUnit) : Doc :=
  match u.body with
  | .entity generics ports decls hasBegin stmts =>
    let head := [p.keyword "entity", .space, p.name u.name, .space, p.keyword "is"]
    let declared := p.declBlock (p.interfaceBlock generics ports) decls
    let inside := if hasBegin then
        [declared.nest, .hardLine, p.keyword "begin",
          ((p.concBlock {} stmts).comments u.tail).nest]
      else [(declared.comments u.tail).nest]
    .concat (head ++ inside ++ [.hardLine, p.namedEnd "entity" u.endLabel u.name])
  | .architecture entityName decls declTail stmts =>
    .concat [p.keyword "architecture", .space, p.name u.name, .space, p.keyword "of", .space,
      p.name entityName, .space, p.keyword "is",
      ((p.declBlock {} decls).comments declTail).nest, .hardLine, p.keyword "begin",
      ((p.concBlock {} stmts).comments u.tail).nest, .hardLine,
      p.namedEnd "architecture" u.endLabel u.name]
  | .package generics decls =>
    .concat [p.keyword "package", .space, p.name u.name, .space, p.keyword "is",
      ((p.declBlock (p.interfaceBlock generics none) decls).comments u.tail).nest, .hardLine,
      p.namedEnd "package" u.endLabel u.name]
  | .packageBody decls =>
    .concat [p.keyword "package body", .space, p.name u.name, .space, p.keyword "is",
      ((p.declBlock {} decls).comments u.tail).nest, .hardLine,
      p.namedEnd "package body" u.endLabel u.name]

/-- A unit with its context clause. -/
def designUnit (p : Printer) (u : DesignUnit) : Doc :=
  let b := u.context.foldl (fun b item => b.row item.trivia (p.contextItem item)) ({} : Block)
  (b.row u.trivia (p.unitBody u)).doc

/-- A file: one blank line between units, then the comments after the last one. -/
def designFile (p : Printer) (f : DesignFile) : Doc :=
  let b := f.units.foldl (fun b u => b.blank.add (p.designUnit u)) ({} : Block)
  (b.comments f.trailing).doc

end Printer

/-! ## Constants of a file -/

namespace DesignFile

/-- The names of a generic clause. -/
def genericNames : Option InterfaceList → List Bytes
  | none => []
  | some l => l.items.flatMap InterfaceItem.names

mutual

/-- The constants and generics a declaration declares. -/
def declConstants : Decl → List Bytes
  | .object _ cls _ ns _ _ => if cls == .constant then ns else []
  | .component _ _ generics _ _ _ => genericNames generics
  | .subprogramBody _ _ decls _ _ _ _ => declsConstants decls
  | _ => []

/-- The constants and generics that declarations declare. -/
def declsConstants : List Decl → List Bytes
  | [] => []
  | d :: rest => declConstants d ++ declsConstants rest

end

mutual

/-- The constants and generics declared inside a statement. -/
def stmtConstants : ConcStmt → List Bytes
  | .process _ body => declsConstants body.decls
  | .forGenerate _ _ _ body _ => bodyConstants body
  | .ifGenerate _ branches _ => branchesConstants branches
  | _ => []

/-- The constants and generics declared inside statements. -/
def stmtsConstants : List ConcStmt → List Bytes
  | [] => []
  | s :: rest => stmtConstants s ++ stmtsConstants rest

/-- The constants and generics declared inside a generate body. -/
def bodyConstants : GenerateBody → List Bytes
  | .mk decls _ stmts _ => declsConstants decls ++ stmtsConstants stmts

/-- The constants and generics declared inside the arms of an if generate statement. -/
def branchesConstants : List GenerateBranch → List Bytes
  | [] => []
  | .mk _ body :: rest => bodyConstants body ++ branchesConstants rest

end

/-- The constants and generics a unit declares. -/
def unitConstants (u : DesignUnit) : List Bytes :=
  match u.body with
  | .entity generics _ decls _ stmts =>
    genericNames generics ++ declsConstants decls ++ stmtsConstants stmts
  | .architecture _ decls _ stmts => declsConstants decls ++ stmtsConstants stmts
  | .package generics decls => genericNames generics ++ declsConstants decls
  | .packageBody decls => declsConstants decls

/-- The constants and generics declared anywhere in a file. -/
def constants (f : DesignFile) : List Bytes := f.units.flatMap unitConstants

/-- The printer for a file: its constants are cased as constants wherever they appear. -/
def printer (f : DesignFile) (s : Settings) : Printer :=
  ⟨s, f.constants.foldl Casing.addConstant s.casing⟩

/-- The document of a file. -/
def document (f : DesignFile) (s : Settings) : Doc := (f.printer s).designFile f

/-- The file as text with a given line terminator. -/
def render (f : DesignFile) (s : Settings) (newline : Bytes) : Bytes :=
  (f.document s).page (s.layout newline)

end DesignFile

end VhdlStyle
