import VhdlStyle.Doc.Columns
import VhdlStyle.Design.Interface.Basic
import VhdlStyle.Design.Expr.Printer

/-! # Printing subtypes, interface lists and maps -/

namespace VhdlStyle.Printer

/-- A subtype indication. -/
def subtype (p : Printer) (s : SubtypeIndication) : Doc :=
  let resolution := match s.resolution with
    | some x => [p.expr x, .space]
    | none => []
  let constraint := match s.constraint with
    | some (.index ranges) => [.text "(", p.exprList ranges, .text ")"]
    | some (.range r) => [.space, p.keyword "range", .space, p.expr r]
    | none => []
  .concat (resolution ++ [p.expr s.mark] ++ constraint)

/-- A default value after its sign. -/
def initializer (p : Printer) : Option Expr → Doc
  | none => .empty
  | some x => .concat [.text ":= ", p.value x]

/-- The cells of an interface row: names, colon, mode, subtype, default. -/
def interfaceCells (p : Printer) (i : InterfaceItem) : List Doc :=
  [Doc.words [p.keyword i.objectClass, p.names i.names], .text ":", p.keyword i.mode,
    p.subtype i.indication, p.initializer i.default]

/-- The columns of an interface list that are padded. -/
def interfacePad (p : Printer) : List Bool :=
  [p.settings.alignColons, true, p.settings.alignTypes, p.settings.alignInitialization, false]

/-- The rows of a list: `first` says that none comes before them, and every row but the last is
followed by the separator. -/
def listRows {α : Type} (trivia : α → RowTrivia) (cells : α → List Doc) (sep : Bytes)
    (first : Bool) : List α → List TableRow
  | [] => []
  | item :: rest =>
    let t := trivia item
    .mk (Doc.leadingLines t (!first)) (cells item) (Doc.rowTail t rest.isEmpty sep) ::
      listRows trivia cells sep false rest

/-- A table and the comments below it. -/
def withTail (table : Doc) (tail : List Comment) : Doc :=
  if tail.isEmpty then .concat [table]
  else .concat [table, .hardLine, Doc.commentLines tail]

/-- The table of an interface list. -/
def interfaceTable (p : Printer) (items : List InterfaceItem) : Doc :=
  Columns.table (listRows InterfaceItem.trivia p.interfaceCells ";" true items) .line true
    p.interfacePad

/-- A generic or port clause. -/
def interfaceClause (p : Printer) (word : Bytes) (l : InterfaceList) : Doc :=
  Doc.bracket (p.casing.keyword word ++ " (") (withTail (p.interfaceTable l.items) l.tail) ");"

/-- The clauses that are there, each on a line of its own. -/
def interfaceBlock (p : Printer) (generics ports : Option InterfaceList) : Block :=
  let b := match generics with
    | some l => Block.add {} (p.interfaceClause "generic" l)
    | none => {}
  match ports with
  | some l => b.add (p.interfaceClause "port" l)
  | none => b

/-- The cells of a map row. -/
def mapCells (p : Printer) (m : MapItem) : List Doc :=
  if m.assoc.choices.isEmpty then [p.expr m.assoc.actual]
  else [p.choices m.assoc.choices, .text "=>", p.value m.assoc.actual]

/-- A generic or port map. -/
def mapList (p : Printer) (words : Bytes) (l : MapList) : Doc :=
  let table := Columns.table (listRows MapItem.trivia p.mapCells "," true l.items) .line
    p.settings.alignSignals [true, true]
  Doc.wrap (p.casing.keyword words ++ " (") (withTail table l.tail) ")"

end VhdlStyle.Printer
