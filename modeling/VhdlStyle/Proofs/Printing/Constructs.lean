import VhdlStyle.Proofs.Design.Parts
import VhdlStyle.Proofs.Printing.Placed

/-! # What rows are printed for

Every row of a file is printed for a construct of the file: an item of a context clause, an element
of an interface list, a map or a record, a declaration, a statement, or the choices of an
alternative. The constructs are those of the tree, at any depth, however it is printed. -/

namespace VhdlStyle

/-- A part of a file that may have a row of its own. -/
inductive Construct where
  | context (item : ContextItem)
  | interface (item : InterfaceItem)
  | association (item : MapItem)
  | field (field : RecordField)
  | declaration (decl : Decl)
  | statement (stmt : SeqStmt)
  | choices (choices : List Expr)
  | concurrent (stmt : ConcStmt)

/-! ## The constructs of a file -/

/-- The port clause of an entity. -/
def DesignUnit.ports (u : DesignUnit) : Option InterfaceList :=
  match u.body with
  | .entity _ ports .. => ports
  | .architecture .. | .package .. | .packageBody _ => none

/-- The elements of an interface list. -/
def InterfaceList.parts : Option InterfaceList → List Construct
  | none => []
  | some l => l.items.map .interface

/-- The elements of a map. -/
def MapList.parts : Option MapList → List Construct
  | none => []
  | some l => l.items.map .association

/-- The statements of an arm. -/
def IfBranch.parts : IfBranch → List Construct
  | .mk _ stmts _ => stmts.map .statement

/-- The choices and the statements of an alternative. -/
def CaseAlt.parts : CaseAlt → List Construct
  | .mk _ choices stmts => .choices choices :: stmts.map .statement

/-- What stands directly inside a statement. -/
def SeqStmt.parts : SeqStmt → List Construct
  | .ifStmt _ branches _ => branches.flatMap IfBranch.parts
  | .caseStmt _ _ _ alts _ _ => alts.flatMap CaseAlt.parts
  | .loop _ _ stmts _ _ => stmts.map .statement
  | _ => []

/-- What stands directly inside a declaration. -/
def Decl.parts : Decl → List Construct
  | .type _ _ (some (.record fields _ _)) => fields.map .field
  | .component _ _ generics ports _ _ => InterfaceList.parts generics ++ InterfaceList.parts ports
  | .subprogram _ spec => spec.params.map .interface
  | .subprogramBody _ spec decls _ stmts _ _ =>
    spec.params.map .interface ++ decls.map .declaration ++ stmts.map .statement
  | _ => []

/-- What stands directly inside the region of a generate statement. -/
def GenerateBody.parts : GenerateBody → List Construct
  | .mk decls _ stmts _ => decls.map .declaration ++ stmts.map .concurrent

/-- What stands directly inside an arm. -/
def GenerateBranch.parts (b : GenerateBranch) : List Construct := b.body.parts

/-- What stands directly inside a statement. -/
def ConcStmt.parts : ConcStmt → List Construct
  | .process _ b => b.decls.map .declaration ++ b.stmts.map .statement
  | .instantiation _ i => MapList.parts i.genericMap ++ MapList.parts i.portMap
  | .forGenerate _ _ _ body _ => body.parts
  | .ifGenerate _ branches _ => branches.flatMap GenerateBranch.parts
  | _ => []

/-- What stands directly inside a unit. -/
def DesignUnit.parts (u : DesignUnit) : List Construct :=
  u.context.map .context ++ InterfaceList.parts u.generics ++ InterfaceList.parts u.ports ++
    u.decls.map .declaration ++ u.stmts.map .concurrent

/-- What stands directly inside a construct. -/
def Construct.parts : Construct → List Construct
  | .declaration d => d.parts
  | .statement s => s.parts
  | .concurrent s => s.parts
  | _ => []

/-- The construct stands in the file, at any depth. -/
inductive DesignFile.Contains (f : DesignFile) : Construct → Prop
  | unit {u : DesignUnit} {c : Construct} : u ∈ f.units → c ∈ u.parts → Contains f c
  | inside {c d : Construct} : Contains f c → d ∈ c.parts → Contains f d

/-! ## Rows of constructs -/

/-- The row is printed for the construct. The rows of a table are as wide as its columns, have
comments above them, and may be the first or the last. -/
inductive Construct.Prints (p : Printer) : Construct → Row → Prop
  | context (item : ContextItem) : Prints p (.context item) (.line (p.contextItem item))
  | interface (i : InterfaceItem) (widths : List Int) (top last : Bool) :
      Prints p (.interface i) (.cells widths
        (.mk (Doc.leadingLines i.trivia top) (p.interfaceCells i) (Doc.rowTail i.trivia last ";")))
  | association (m : MapItem) (widths : List Int) (top last : Bool) :
      Prints p (.association m) (.cells widths
        (.mk (Doc.leadingLines m.trivia top) (p.mapCells m) (Doc.rowTail m.trivia last ",")))
  | field (f : RecordField) (widths : List Int) (top : Bool) :
      Prints p (.field f) (.cells widths
        (.mk (Doc.leadingLines f.trivia top)
          [p.names f.names, .text ":", p.subtype f.indication]
          (.concat [.text ";", Doc.inline f.trivia.inline])))
  | object {d : Decl} {t : RowTrivia} {cells : List Doc} (h : p.declRow d = .object t cells)
      (widths : List Int) (first : Bool) :
      Prints p (.declaration d) (.cells widths (Printer.objectRow first (.object t cells)))
  | declaration {d : Decl} {t : RowTrivia} {body : Doc} (h : p.declRow d = .single t body) :
      Prints p (.declaration d) (.line body)
  | statement (s : SeqStmt) : Prints p (.statement s) (.line (p.seqStmt s))
  | choices (xs : List Expr) : Prints p (.choices xs) (.line (p.choiceHeader xs))
  | concurrent (s : ConcStmt) : Prints p (.concurrent s) (.line (p.concStmt s))

namespace DesignFile

/-- Each of the rows is printed for a construct of the file. -/
def Explains (f : DesignFile) (p : Printer) (xs : List PlacedRow) : Prop :=
  ∀ x ∈ xs, ∃ c, f.Contains c ∧ c.Prints p x.row

variable {f : DesignFile} {p : Printer} {level : Int} {xs ys : List PlacedRow}

namespace Explains

theorem nil : f.Explains p [] := fun _ hx => absurd hx List.not_mem_nil

theorem append (hxs : f.Explains p xs) (hys : f.Explains p ys) : f.Explains p (xs ++ ys) :=
  fun x hx => (List.mem_append.mp hx).elim (hxs x) (hys x)

theorem cons {x : PlacedRow} {c : Construct} (hc : f.Contains c) (hx : c.Prints p x.row)
    (hxs : f.Explains p xs) : f.Explains p (x :: xs) :=
  List.forall_mem_cons.mpr ⟨⟨c, hc, hx⟩, hxs⟩

end Explains

/-! ### Tables -/

theorem mem_listRows {α : Type} {trivia : α → RowTrivia} {cells : α → List Doc} {sep : Bytes}
    {first : Bool} {items : List α} {row : TableRow}
    (h : row ∈ Printer.listRows trivia cells sep first items) :
    ∃ item ∈ items, ∃ top last, row =
      .mk (Doc.leadingLines (trivia item) top) (cells item) (Doc.rowTail (trivia item) last sep) := by
  induction items generalizing first with
  | nil => cases h
  | cons item rest ih =>
      rcases List.mem_cons.mp h with rfl | h
      · exact ⟨item, List.mem_cons_self, _, _, rfl⟩
      · obtain ⟨other, hother, hrow⟩ := ih h
        exact ⟨other, List.mem_cons_of_mem _ hother, hrow⟩

theorem explains_interfaceTable {items : List InterfaceItem}
    (h : ∀ c ∈ items.map Construct.interface, f.Contains c) :
    f.Explains p (Printer.tableRows level (p.interfaceTable items)) := by
  intro x hx
  obtain ⟨widths, row, hrow, rfl⟩ := Printer.mem_columns hx
  obtain ⟨i, hi, top, last, rfl⟩ := mem_listRows hrow
  exact ⟨.interface i, h _ (List.mem_map_of_mem hi), .interface i widths top last⟩

theorem explains_clauseRows {l : Option InterfaceList}
    (h : ∀ c ∈ InterfaceList.parts l, f.Contains c) : f.Explains p (p.clauseRows level l) := by
  cases l with
  | none => exact .nil
  | some l => exact explains_interfaceTable h

theorem explains_mapRows {l : Option MapList} (h : ∀ c ∈ MapList.parts l, f.Contains c) :
    f.Explains p (p.mapRows level l) := by
  cases l with
  | none => exact .nil
  | some l =>
      intro x hx
      obtain ⟨widths, row, hrow, rfl⟩ := Printer.mem_columns hx
      obtain ⟨m, hm, top, last, rfl⟩ := mem_listRows hrow
      exact ⟨.association m, h _ (List.mem_map_of_mem hm), .association m widths top last⟩

theorem mem_recordRows {cells : RecordField → List Doc} {first : Bool} {fields : List RecordField}
    {row : TableRow} (h : row ∈ Printer.recordType.rows cells first fields) :
    ∃ r ∈ fields, ∃ top, row = .mk (Doc.leadingLines r.trivia top) (cells r)
      (.concat [.text ";", Doc.inline r.trivia.inline]) := by
  induction fields generalizing first with
  | nil => cases h
  | cons r rest ih =>
      rcases List.mem_cons.mp h with rfl | h
      · exact ⟨r, List.mem_cons_self, _, rfl⟩
      · obtain ⟨other, hother, hrow⟩ := ih h
        exact ⟨other, List.mem_cons_of_mem _ hother, hrow⟩

theorem explains_recordTable {fields : List RecordField}
    (h : ∀ c ∈ fields.map Construct.field, f.Contains c) :
    f.Explains p (Printer.tableRows level (p.recordTable fields)) := by
  intro x hx
  obtain ⟨widths, row, hrow, rfl⟩ := Printer.mem_columns hx
  obtain ⟨r, hr, top, rfl⟩ := mem_recordRows hrow
  exact ⟨.field r, h _ (List.mem_map_of_mem hr), .field r widths top⟩

/-! ### Statements -/

mutual

theorem explains_innerSeqRows (level : Int) (s : SeqStmt) (h : ∀ c ∈ s.parts, f.Contains c) :
    f.Explains p (p.innerSeqRows level s) := by
  cases s with
  | ifStmt _ branches _ => exact explains_branchRows level branches h
  | caseStmt _ _ _ alts _ _ => exact explains_altRows (level + 1) alts h
  | loop _ _ stmts _ _ => exact explains_seqRows (level + 1) stmts h
  | signalAssign | varAssign | loopControl | returnStmt | nullStmt | waitStmt | reportStmt
  | assertStmt | call => exact .nil

theorem explains_seqRows (level : Int) (stmts : List SeqStmt)
    (h : ∀ c ∈ stmts.map Construct.statement, f.Contains c) :
    f.Explains p (p.seqRows level stmts) := by
  cases stmts with
  | nil => exact .nil
  | cons s rest =>
      obtain ⟨hs, hrest⟩ := List.forall_mem_cons.mp h
      have hinner := explains_innerSeqRows level s fun c hc => hs.inside hc
      exact .cons hs (.statement s) (hinner.append (explains_seqRows level rest hrest))

theorem explains_branchRows (level : Int) (branches : List IfBranch)
    (h : ∀ c ∈ branches.flatMap IfBranch.parts, f.Contains c) :
    f.Explains p (p.branchRows level branches) := by
  cases branches with
  | nil => exact .nil
  | cons branch rest =>
      cases branch with
      | mk cond stmts tail =>
          rw [List.flatMap_cons, List.forall_mem_append] at h
          exact .append (explains_seqRows (level + 1) stmts h.1)
            (explains_branchRows level rest h.2)

theorem explains_altRows (level : Int) (alts : List CaseAlt)
    (h : ∀ c ∈ alts.flatMap CaseAlt.parts, f.Contains c) :
    f.Explains p (p.altRows level alts) := by
  cases alts with
  | nil => exact .nil
  | cons alt rest =>
      cases alt with
      | mk t choices stmts =>
          rw [List.flatMap_cons, List.forall_mem_append, CaseAlt.parts, List.forall_mem_cons] at h
          obtain ⟨⟨hchoices, hstmts⟩, hrest⟩ := h
          have hinner := explains_seqRows (level + 1) stmts hstmts
          exact .cons hchoices (.choices choices) (hinner.append (explains_altRows level rest hrest))

end

/-! ### Declarations -/

theorem exists_of_mem_declRows {decls : List Decl} {row : Printer.DeclRow}
    (h : row ∈ p.declRows decls) : ∃ d ∈ decls, p.declRow d = row := by
  induction decls with
  | nil => cases h
  | cons d rest ih =>
      rcases List.mem_cons.mp h with rfl | h
      · exact ⟨d, List.mem_cons_self, rfl⟩
      · obtain ⟨other, hother, hrow⟩ := ih h
        exact ⟨other, List.mem_cons_of_mem _ hother, hrow⟩

/-- A run is a single declaration, or objects only. -/
theorem explains_runRows {decls : List Decl} {run : List Printer.DeclRow}
    (h : ∀ c ∈ decls.map Construct.declaration, f.Contains c)
    (hrun : run ∈ Columns.runs Printer.DeclRow.starts (p.declRows decls)) :
    f.Explains p (p.runRows level run) := by
  have hprinted : ∀ row ∈ run, ∃ d, f.Contains (.declaration d) ∧ p.declRow d = row := by
    intro row hrow
    obtain ⟨d, hd, hprints⟩ := exists_of_mem_declRows (Columns.mem_of_mem_runs _ hrun hrow)
    exact ⟨d, h _ (List.mem_map_of_mem hd), hprints⟩
  cases run with
  | nil => exact .nil
  | cons first rest =>
      obtain ⟨d, hd, hprints⟩ := hprinted first List.mem_cons_self
      cases first with
      | single t body => exact .cons hd (.declaration hprints) .nil
      | object t cells =>
          intro x hx
          rw [Printer.runRows] at hx
          obtain ⟨widths, row, hrow, rfl⟩ := Printer.mem_columns hx
          rcases List.mem_cons.mp hrow with rfl | hrow
          · exact ⟨.declaration d, hd, .object hprints widths true⟩
          · obtain ⟨other, hother, rfl⟩ := List.mem_map.mp hrow
            obtain ⟨t, cells, rfl⟩ := Printer.DeclRow.exists_object hrun hother
            obtain ⟨e, he, hprints⟩ := hprinted _ (List.mem_cons_of_mem _ hother)
            exact ⟨.declaration e, he, .object hprints widths false⟩

theorem explains_ownRows {decls : List Decl}
    (h : ∀ c ∈ decls.map Construct.declaration, f.Contains c) :
    f.Explains p (p.ownRows level decls) := by
  intro x hx
  obtain ⟨run, hrun, hx⟩ := List.mem_flatMap.mp hx
  exact explains_runRows h hrun x hx

mutual

theorem explains_innerDeclRows (level : Int) (d : Decl) (h : ∀ c ∈ d.parts, f.Contains c) :
    f.Explains p (p.innerDeclRows level d) := by
  cases d with
  | type t name definition =>
      match definition, h with
      | some (.record fields endLabel tail), h => exact explains_recordTable h
      | none, _ | some (.enum _), _ | some (.range ..), _ | some (.array ..), _
      | some (.access _), _ => exact .nil
  | component t name generics ports endLabel tail =>
      rw [Decl.parts, List.forall_mem_append] at h
      exact .append (explains_clauseRows h.1) (explains_clauseRows h.2)
  | subprogram t spec => exact explains_interfaceTable h
  | subprogramBody t spec decls declTail stmts endLabel tail =>
      simp only [Decl.parts, List.forall_mem_append] at h
      obtain ⟨⟨hparams, hdecls⟩, hstmts⟩ := h
      exact ((explains_interfaceTable hparams).append
        ((explains_ownRows hdecls).append (explains_innerDeclsRows (level + 1) decls hdecls))).append
          (explains_seqRows (level + 1) stmts hstmts)
  | _ => exact .nil

theorem explains_innerDeclsRows (level : Int) (decls : List Decl)
    (h : ∀ c ∈ decls.map Construct.declaration, f.Contains c) :
    f.Explains p (p.innerDeclsRows level decls) := by
  cases decls with
  | nil => exact .nil
  | cons d rest =>
      obtain ⟨hd, hrest⟩ := List.forall_mem_cons.mp h
      have hinner := explains_innerDeclRows level d fun c hc => hd.inside hc
      exact hinner.append (explains_innerDeclsRows level rest hrest)

end

theorem explains_declPartRows {decls : List Decl}
    (h : ∀ c ∈ decls.map Construct.declaration, f.Contains c) :
    f.Explains p (p.declPartRows level decls) :=
  (explains_ownRows h).append (explains_innerDeclsRows level decls h)

/-! ### Concurrent statements -/

mutual

theorem explains_innerConcRows (level : Int) (s : ConcStmt) (h : ∀ c ∈ s.parts, f.Contains c) :
    f.Explains p (p.innerConcRows level s) := by
  cases s with
  | process _ b =>
      rw [ConcStmt.parts, List.forall_mem_append] at h
      exact .append (explains_declPartRows h.1) (explains_seqRows (level + 1) b.stmts h.2)
  | instantiation _ i =>
      rw [ConcStmt.parts, List.forall_mem_append] at h
      exact .append (explains_mapRows h.1) (explains_mapRows h.2)
  | forGenerate _ _ _ body _ => exact explains_bodyRows level body h
  | ifGenerate _ branches _ => exact explains_generateRows level branches h
  | assign | selectedAssign | assertStmt | call => exact .nil

theorem explains_concRows (level : Int) (stmts : List ConcStmt)
    (h : ∀ c ∈ stmts.map Construct.concurrent, f.Contains c) :
    f.Explains p (p.concRows level stmts) := by
  cases stmts with
  | nil => exact .nil
  | cons s rest =>
      obtain ⟨hs, hrest⟩ := List.forall_mem_cons.mp h
      have hinner := explains_innerConcRows level s fun c hc => hs.inside hc
      exact .cons hs (.concurrent s) (hinner.append (explains_concRows level rest hrest))

theorem explains_bodyRows (level : Int) (body : GenerateBody)
    (h : ∀ c ∈ body.parts, f.Contains c) : f.Explains p (p.bodyRows level body) := by
  cases body with
  | mk decls hasBegin stmts tail =>
      rw [GenerateBody.parts, List.forall_mem_append] at h
      refine .append ?_ (explains_concRows (level + 1) stmts h.2)
      cases hasBegin with
      | false => exact .nil
      | true => exact explains_declPartRows h.1

theorem explains_generateRows (level : Int) (branches : List GenerateBranch)
    (h : ∀ c ∈ branches.flatMap GenerateBranch.parts, f.Contains c) :
    f.Explains p (p.generateRows level branches) := by
  cases branches with
  | nil => exact .nil
  | cons branch rest =>
      cases branch with
      | mk cond body =>
          rw [List.flatMap_cons, List.forall_mem_append] at h
          exact .append (explains_bodyRows level body h.1) (explains_generateRows level rest h.2)

end

/-! ### Units -/

theorem explains_bodyOfUnitRows {u : DesignUnit} (h : ∀ c ∈ u.parts, f.Contains c) :
    f.Explains p (p.bodyOfUnitRows level u) := by
  simp only [DesignUnit.parts, List.forall_mem_append] at h
  obtain ⟨⟨⟨⟨-, hgenerics⟩, hports⟩, hdecls⟩, hstmts⟩ := h
  rw [DesignUnit.generics] at hgenerics
  rw [DesignUnit.ports] at hports
  rw [DesignUnit.decls] at hdecls
  rw [DesignUnit.stmts] at hstmts
  rw [Printer.bodyOfUnitRows]
  split
  · next hbody =>
      rw [hbody] at hgenerics hports hdecls hstmts
      refine (((explains_clauseRows hgenerics).append (explains_clauseRows hports)).append
        (explains_declPartRows hdecls)).append ?_
      split
      · exact explains_concRows (level + 1) _ hstmts
      · exact .nil
  · next hbody =>
      rw [hbody] at hdecls hstmts
      exact .append (explains_declPartRows hdecls) (explains_concRows (level + 1) _ hstmts)
  · next hbody =>
      rw [hbody] at hgenerics hdecls
      exact .append (explains_clauseRows hgenerics) (explains_declPartRows hdecls)
  · next hbody =>
      rw [hbody] at hdecls
      exact explains_declPartRows hdecls

/-- Every row of a file is printed for a construct of the file. -/
theorem explains_rows (f : DesignFile) (s : Settings) : f.Explains (f.printer s) (f.rows s) := by
  intro x hx
  obtain ⟨u, hu, hx⟩ := List.mem_flatMap.mp hx
  have hparts : ∀ c ∈ u.parts, f.Contains c := fun c hc => .unit hu hc
  rcases List.mem_append.mp hx with hx | hx
  · obtain ⟨item, hitem, rfl⟩ := List.mem_map.mp hx
    refine ⟨.context item, hparts _ ?_, .context item⟩
    simp [DesignUnit.parts, hitem]
  · exact explains_bodyOfUnitRows hparts x hx

end DesignFile

end VhdlStyle
