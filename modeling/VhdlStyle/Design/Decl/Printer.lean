import VhdlStyle.Design.Decl.Basic
import VhdlStyle.Design.Sequential.Printer

/-! # Printing declarations

Object declarations that follow one another without blank lines are aligned as one table. -/

namespace VhdlStyle.Printer

/-- The end of a named construct; its label or its name is always shown. -/
def namedEnd (p : Printer) (words endLabel name : Bytes) : Doc :=
  .concat [p.keyword "end", .space, p.keyword words, .space, p.name (endLabel.orElse name),
    .text ";"]

/-- A use clause. -/
def useClause (p : Printer) (c : UseClause) : Doc :=
  .concat [p.keyword "use", .space, p.exprList c.names, .text ";"]

/-! ## Types -/

/-- The units of a physical type as rows of a block. -/
def physicalUnits (p : Printer) (units : List PhysicalUnit) : Block :=
  units.foldl (fun b u =>
    let value := match u.value with
      | some x => [.text " = ", p.expr x]
      | none => []
    b.row u.trivia (.concat (p.name u.name :: value ++ [.text ";"]))) {}

/-- A range, and the units of a physical type. -/
def rangeType (p : Printer) (r : Expr) (units : List PhysicalUnit) : List Doc :=
  let head := [p.keyword "range", .space, p.expr r]
  if units.isEmpty then head
  else
    let inner := (Block.add {} (.concat [p.keyword "units", (p.physicalUnits units).nest])).add
      (.concat [p.keyword "end", .space, p.keyword "units"])
    head ++ [inner.nest]

/-- The fields of a record, aligned at their colons, up to the end of the declaration. -/
def recordType (p : Printer) (name : Bytes) (fields : List RecordField) (endLabel : Bytes)
    (tail : List Comment) : Doc :=
  let cells (f : RecordField) : List Doc := [p.names f.names, .text ":", p.subtype f.indication]
  let rec rows (first : Bool) : List RecordField → List TableRow
    | [] => []
    | f :: rest =>
      .mk (Doc.leadingLines f.trivia (!first)) (cells f)
        (.concat [.text ";", Doc.inline f.trivia.inline]) :: rows false rest
  let b : Block := if fields.isEmpty then {}
    else Block.add {} (Columns.table (rows true fields) .hardLine true
      [p.settings.alignColons, true, false])
  .concat [p.keyword "record", (b.comments tail).nest, .hardLine,
    p.namedEnd "record" endLabel name]

/-- A type declaration. -/
def typeDecl (p : Printer) (name : Bytes) (definition : Option TypeDef) : Doc :=
  let head := [p.keyword "type", .space, p.name name]
  let is_ := [.space, p.keyword "is", .space]
  match definition with
  | none => .concat (head ++ [.text ";"])
  | some (.enum literals) =>
    .concat (head ++ is_ ++ [parens (literals.map p.leaf), .text ";"])
  | some (.range r units) => .concat (head ++ is_ ++ p.rangeType r units ++ [.text ";"])
  | some (.array indexes element) =>
    .concat (head ++ is_ ++ [p.keyword "array", .space, .text "(", p.exprList indexes, .text ")",
      .space, p.keyword "of", .space, p.subtype element, .text ";"])
  | some (.record fields endLabel tail) =>
    .concat (head ++ is_ ++ [p.recordType name fields endLabel tail])
  | some (.access target) =>
    .concat (head ++ is_ ++ [p.keyword "access", .space, p.subtype target, .text ";"])

/-! ## Other declarations -/

/-- The header of a function or procedure. -/
def subprogramSpec (p : Printer) (s : SubprogramSpec) : Doc :=
  let params := if s.params.isEmpty && s.tail.isEmpty then []
    else [Doc.wrap "(" (withTail (p.interfaceTable s.params) s.tail) ")"]
  .concat (Doc.words [p.keyword s.purity, p.keyword s.kind, p.name s.name] :: params ++
    p.clause "return" p.expr s.result)

/-- A component declaration. -/
def component (p : Printer) (name : Bytes) (generics ports : Option InterfaceList)
    (endLabel : Bytes) (tail : List Comment) : Doc :=
  .concat [p.keyword "component", .space, p.name name, .space, p.keyword "is",
    ((p.interfaceBlock generics ports).comments tail).nest, .hardLine,
    p.namedEnd "component" endLabel name]

/-- A space stands between two tokens that are kept as they are, but not before a comma, a
semicolon, a closing parenthesis, a dot or a tick, after an opening parenthesis, a dot or a tick,
or between an identifier and a parenthesis. -/
def rawSpace (previous token : RawToken) : Bool :=
  let before : List Bytes := [",", ";", ")", ".", "'"]
  let after : List Bytes := ["(", ".", "'"]
  if before.contains token.text then false
  else if token.text == "(" then !previous.isIdent
  else !after.contains previous.text

/-- The text of a token that is kept as it is. -/
def rawToken (p : Printer) (t : RawToken) : Bytes :=
  if t.isKeyword then p.casing.keyword t.text
  else if t.isIdent then p.casing.name t.text
  else t.text

/-- The tokens after `previous`. -/
def rawAfter (p : Printer) (previous : RawToken) : List RawToken → Bytes
  | [] => []
  | t :: rest =>
    (if rawSpace previous t then [Bytes.space] else []) ++ p.rawToken t ++ rawAfter p t rest

/-- A declaration that is kept as its tokens. -/
def raw (p : Printer) : List RawToken → Doc
  | [] => .text ";"
  | t :: rest => .text (p.rawToken t ++ p.rawAfter t rest ++ ";")

/-! ## Declarative parts -/

/-- A printed declaration: the cells of an object, which may be aligned with others, or a whole
document. -/
inductive DeclRow where
  | object (trivia : RowTrivia) (cells : List Doc)
  | single (trivia : RowTrivia) (body : Doc)

namespace DeclRow

/-- The row begins a run of its own: only an object directly below an object does not. -/
def starts (previous row : DeclRow) : Bool :=
  match previous, row with
  | .object .., .object t _ => t.hasBlank
  | _, _ => true

end DeclRow

/-- The columns of object declarations that are padded: keyword, names, colon, subtype, default. -/
def objectPad (p : Printer) : List Bool :=
  [p.settings.alignColons, p.settings.alignColons, true, p.settings.alignInitialization, false]

/-- The table row of an object; the lines above the first row of a run stand outside the table. -/
def objectRow (first : Bool) : DeclRow → TableRow
  | .object t cells =>
    .mk (if first then [] else Doc.leadingLines t false) cells
      (.concat [.text ";", Doc.inline t.inline])
  | .single _ body => .mk [] [body] .empty

/-- Adds a run of declarations to a block. -/
def addRun (p : Printer) (b : Block) : List DeclRow → Block
  | [] => b
  | .single t body :: _ => b.row t body
  | .object t cells :: rest =>
    (b.leading t).add (Columns.table (objectRow true (.object t cells) :: rest.map (objectRow false))
      .hardLine true p.objectPad)

/-- Adds declarations to a block. -/
def addRows (p : Printer) (b : Block) (rows : List DeclRow) : Block :=
  (Columns.runs DeclRow.starts rows).foldl p.addRun b

mutual

/-- A declaration. -/
def declRow (p : Printer) : Decl → DeclRow
  | .object t _ word ns s x =>
    .object t [p.keyword word, p.names ns, .text ":", p.subtype s, p.initializer x]
  | .type t name definition => .single t (p.typeDecl name definition)
  | .subtype t name s =>
    .single t (.concat [Doc.words [p.keyword "subtype", p.name name, p.keyword "is", p.subtype s],
      .text ";"])
  | .alias t name s target =>
    let indication := match s with
      | some s => [.text " : ", p.subtype s]
      | none => []
    .single t (.concat ([p.keyword "alias", .space, p.name name] ++ indication ++
      [.space, p.keyword "is", .space, p.expr target, .text ";"]))
  | .component t name generics ports endLabel tail =>
    .single t (p.component name generics ports endLabel tail)
  | .attribute t name mark =>
    .single t (.concat [Doc.words [p.keyword "attribute", p.name name, .text ":", p.expr mark],
      .text ";"])
  | .attributeSpec t name entities entityClass x =>
    .single t (.concat [Doc.words [p.keyword "attribute", p.name name, p.keyword "of",
      p.exprList entities, .text ":", p.keyword entityClass, p.keyword "is", p.value x], .text ";"])
  | .subprogram t spec => .single t (.concat [p.subprogramSpec spec, .text ";"])
  | .subprogramBody t spec decls declTail stmts endLabel tail =>
    .single t (.concat [p.subprogramSpec spec, .space, p.keyword "is",
      ((p.addRows {} (declRows p decls)).comments declTail).nest, .hardLine, p.keyword "begin",
      ((p.seqBlock {} stmts).comments tail).nest, .hardLine,
      p.namedEnd spec.kind endLabel spec.name])
  | .use clause => .single clause.trivia (p.useClause clause)
  | .raw t tokens => .single t (p.raw tokens)

/-- Declarations. -/
def declRows (p : Printer) : List Decl → List DeclRow
  | [] => []
  | d :: rest => declRow p d :: declRows p rest

end

/-- Adds a declarative part to a block. -/
def declBlock (p : Printer) (b : Block) (decls : List Decl) : Block := p.addRows b (p.declRows decls)

end VhdlStyle.Printer
