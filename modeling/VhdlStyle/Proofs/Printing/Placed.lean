import VhdlStyle.Design.Unit.Printer
import VhdlStyle.Proofs.Layout.OneLine
import VhdlStyle.Proofs.Printing.Declarations

/-! # The rows of a design

Every statement, declaration and choice header, every context item, and every row of an interface
list, a map, a record or a run of objects is a row. A file prints each of its rows at the level of
indentation of the construct it stands in. -/

namespace VhdlStyle

namespace Printer

variable (p : Printer) (level : Int)

/-! ## Tables -/

/-- The rows of a table. -/
def tableRows : Doc → List PlacedRow
  | .table rows widths _ => rows.map fun row => ⟨level, .cells widths row⟩
  | _ => []

section

variable {rows : List TableRow} {widths : List Int} {sep : Doc} {level : Int} {x : PlacedRow}

theorem exists_table (rows : List TableRow) (sep : Doc) (enabled : Bool) (pad : List Bool) :
    ∃ widths, Columns.table rows sep enabled pad = .table rows widths sep := by
  rw [Columns.table]
  split <;> exact ⟨_, rfl⟩

theorem mem_tableRows (hx : x ∈ tableRows level (.table rows widths sep)) :
    ∃ row ∈ rows, x = ⟨level, .cells widths row⟩ := by
  obtain ⟨row, hrow, rfl⟩ := List.mem_map.mp hx
  exact ⟨row, hrow, rfl⟩

theorem mem_columns {enabled : Bool} {pad : List Bool}
    (hx : x ∈ tableRows level (Columns.table rows sep enabled pad)) :
    ∃ widths, ∃ row ∈ rows, x = ⟨level, .cells widths row⟩ := by
  obtain ⟨widths, htable⟩ := exists_table rows sep enabled pad
  rw [htable] at hx
  exact ⟨widths, mem_tableRows hx⟩

end

/-- The rows of a generic or port clause. -/
def clauseRows : Option InterfaceList → List PlacedRow
  | none => []
  | some l => tableRows level (p.interfaceTable l.items)

/-- The table of a generic or port map. -/
def mapTable (items : List MapItem) : Doc :=
  Columns.table (listRows MapItem.trivia p.mapCells "," true items) .line
    p.settings.alignSignals [true, true]

/-- The rows of a generic or port map. -/
def mapRows : Option MapList → List PlacedRow
  | none => []
  | some l => tableRows level (p.mapTable l.items)

/-! ## Statements -/

/-- What stands before the statements of a choice. -/
def choiceHeader (xs : List Expr) : Doc :=
  .concat [p.keyword "when", .space, p.choices xs, .text " =>"]

mutual

/-- The rows inside a statement. -/
def innerSeqRows (level : Int) : SeqStmt → List PlacedRow
  | .ifStmt _ branches _ => branchRows level branches
  | .caseStmt _ _ _ alts _ _ => altRows (level + 1) alts
  | .loop _ _ stmts _ _ => seqRows (level + 1) stmts
  | _ => []

/-- The rows of statements. -/
def seqRows (level : Int) : List SeqStmt → List PlacedRow
  | [] => []
  | s :: rest => ⟨level, .line (p.seqStmt s)⟩ :: innerSeqRows level s ++ seqRows level rest

/-- The rows inside the arms of an if statement. -/
def branchRows (level : Int) : List IfBranch → List PlacedRow
  | [] => []
  | .mk _ stmts _ :: rest => seqRows (level + 1) stmts ++ branchRows level rest

/-- The rows of the alternatives of a case statement. -/
def altRows (level : Int) : List CaseAlt → List PlacedRow
  | [] => []
  | .mk _ choices stmts :: rest =>
    ⟨level, .line (p.choiceHeader choices)⟩ :: seqRows (level + 1) stmts ++ altRows level rest

end

/-! ## Declarations -/

/-- The table of a record. -/
def recordTable (fields : List RecordField) : Doc :=
  Columns.table (recordType.rows (fun f => [p.names f.names, .text ":", p.subtype f.indication])
    true fields) .hardLine true [p.settings.alignColons, true, false]

/-- The rows of the parameters of a subprogram. -/
def paramRows (spec : SubprogramSpec) : List PlacedRow :=
  tableRows level (p.interfaceTable spec.params)

/-- The rows of a run of declarations. -/
def runRows : List DeclRow → List PlacedRow
  | [] => []
  | .single _ body :: _ => [⟨level, .line body⟩]
  | .object t cells :: rest =>
    tableRows level (Columns.table
      (objectRow true (.object t cells) :: rest.map (objectRow false)) .hardLine true p.objectPad)

/-- Behind the first row of a run all are objects. -/
theorem DeclRow.exists_object {first row : DeclRow} {rest rows : List DeclRow}
    (hrun : (first :: rest) ∈ Columns.runs DeclRow.starts rows) (h : row ∈ rest) :
    ∃ t cells, row = .object t cells := by
  obtain ⟨previous, hprevious⟩ := Columns.exists_starts_eq_false DeclRow.starts hrun h
  cases row with
  | object t cells => exact ⟨t, cells, rfl⟩
  | single t body => cases previous <;> cases hprevious

/-- The rows that declarations are themselves. -/
def ownRows (decls : List Decl) : List PlacedRow :=
  (Columns.runs DeclRow.starts (p.declRows decls)).flatMap (p.runRows level)

mutual

/-- The rows inside a declaration. -/
def innerDeclRows (level : Int) : Decl → List PlacedRow
  | .type _ _ (some (.record fields _ _)) => tableRows (level + 1) (p.recordTable fields)
  | .component _ _ generics ports _ _ =>
    p.clauseRows (level + 1 + 1) generics ++ p.clauseRows (level + 1 + 1) ports
  | .subprogram _ spec => p.paramRows (level + 1) spec
  | .subprogramBody _ spec decls _ stmts _ _ =>
    p.paramRows (level + 1) spec ++
      (p.ownRows (level + 1) decls ++ innerDeclsRows (level + 1) decls) ++
      p.seqRows (level + 1) stmts
  | _ => []

/-- The rows inside declarations. -/
def innerDeclsRows (level : Int) : List Decl → List PlacedRow
  | [] => []
  | d :: rest => innerDeclRows level d ++ innerDeclsRows level rest

end

/-- The rows of declarations. -/
def declPartRows (decls : List Decl) : List PlacedRow :=
  p.ownRows level decls ++ p.innerDeclsRows level decls

/-! ## Concurrent statements -/

mutual

/-- The rows inside a statement. -/
def innerConcRows (level : Int) : ConcStmt → List PlacedRow
  | .process _ b => p.declPartRows (level + 1) b.decls ++ p.seqRows (level + 1) b.stmts
  | .instantiation _ i =>
    p.mapRows (level + 1 + 1) i.genericMap ++ p.mapRows (level + 1 + 1) i.portMap
  | .forGenerate _ _ _ body _ => bodyRows level body
  | .ifGenerate _ branches _ => generateRows level branches
  | _ => []

/-- The rows of statements. -/
def concRows (level : Int) : List ConcStmt → List PlacedRow
  | [] => []
  | s :: rest => ⟨level, .line (p.concStmt s)⟩ :: innerConcRows level s ++ concRows level rest

/-- The rows inside a generate statement. -/
def bodyRows (level : Int) : GenerateBody → List PlacedRow
  | .mk decls hasBegin stmts _ =>
    (if hasBegin then p.declPartRows (level + 1) decls else []) ++ concRows (level + 1) stmts

/-- The rows inside the arms of an if generate statement. -/
def generateRows (level : Int) : List GenerateBranch → List PlacedRow
  | [] => []
  | .mk _ body :: rest => bodyRows level body ++ generateRows level rest

end

/-! ## Units -/

/-- The rows inside a unit. -/
def bodyOfUnitRows (u : DesignUnit) : List PlacedRow :=
  match u.body with
  | .entity generics ports decls hasBegin stmts =>
    p.clauseRows (level + 1 + 1) generics ++ p.clauseRows (level + 1 + 1) ports ++
      p.declPartRows (level + 1) decls ++ (if hasBegin then p.concRows (level + 1) stmts else [])
  | .architecture _ decls _ stmts =>
    p.declPartRows (level + 1) decls ++ p.concRows (level + 1) stmts
  | .package generics decls =>
    p.clauseRows (level + 1 + 1) generics ++ p.declPartRows (level + 1) decls
  | .packageBody decls => p.declPartRows (level + 1) decls

/-- The rows of a unit and its context clause. -/
def unitRows (u : DesignUnit) : List PlacedRow :=
  (u.context.map fun item => ⟨level, .line (p.contextItem item)⟩) ++ p.bodyOfUnitRows level u

end Printer

/-- The rows of a file. -/
def DesignFile.rows (f : DesignFile) (s : Settings) : List PlacedRow :=
  f.units.flatMap ((f.printer s).unitRows 0)

end VhdlStyle
