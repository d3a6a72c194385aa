import VhdlStyle.Proofs.Printing.Statements

/-! # Declarations show their comments

Declarations with parts of their own are documents, objects are rows of tables. A run of objects is
one table, with the lines above its first row outside. -/

namespace VhdlStyle

namespace Printer

variable (p : Printer)

/-! ## Interface lists -/

theorem shows_interfaceRows {items : List InterfaceItem} (h : ∀ i ∈ items, i.InCode) :
    TableRow.AllShow (listRows InterfaceItem.trivia p.interfaceCells ";" true items)
      (allComments InterfaceItem.comments items) :=
  shows_listRows (by decide) true fun i hi => p.quiet_interfaceCells (h i hi)

theorem shows_interfaceTable {items : List InterfaceItem} (h : ∀ i ∈ items, i.InCode) :
    Doc.Shows false [p.interfaceTable items] true (allComments InterfaceItem.comments items) := by
  exact Columns.shows_table (p.shows_interfaceRows h) .line Doc.quiet_line true p.interfacePad

theorem breaks_interfaceTable {items : List InterfaceItem} (h : ∀ i ∈ items, i.InCode) :
    Doc.Breaks (p.interfaceTable items) := by
  exact Columns.breaks_table (p.shows_interfaceRows h) Doc.quiet_line true p.interfacePad

/-- A word and an opening parenthesis are code. -/
theorem isCode_opening {word : Bytes} (hword : word.isPlain = true) :
    (p.casing.keyword word ++ " (").isCode = true := by
  have hstart := p.casing.keywords.startsWord_apply (Bytes.isPlain_iff.mp hword).1
  have hsettled := (Bytes.inCode_of_isPlain hword).isSettled p.casing.keywords
  exact Bytes.isCode_iff.mpr ⟨Bytes.isComment_of_startsWord (Bytes.startsWord_append hstart _),
    Bytes.isSettled_append hsettled (by decide)⟩

theorem shows_interfaceClause {word : Bytes} (hword : word.isPlain = true) {l : InterfaceList}
    (h : l.InCode) : Doc.Shows false [p.interfaceClause word l] false l.comments :=
  .bracket (shows_withTail (p.shows_interfaceTable h) l.tail)
    (breaks_withTail (p.breaks_interfaceTable h) l.tail) (p.isCode_opening hword) (by decide)

theorem shows_interfaceBlock {generics ports : Option InterfaceList}
    (hgenerics : ∀ l ∈ generics, l.InCode) (hports : ∀ l ∈ ports, l.InCode) :
    (p.interfaceBlock generics ports).Shows (anyComments InterfaceList.comments generics +
      anyComments InterfaceList.comments ports) := by
  have hline (word : Bytes) (hword : word.isPlain = true) {l : InterfaceList} (h : l.InCode) :
      Doc.Shows false [p.interfaceClause word l] true l.comments :=
    (p.shows_interfaceClause hword h).mono (Bool.le_refl _) (Bool.false_le _)
  have hgeneric {l : InterfaceList} (h : l.InCode) :
      (Block.add {} (p.interfaceClause "generic" l)).Shows (0 + l.comments) :=
    Block.shows_empty.add (hline _ (by decide) h)
  match generics, ports with
  | none, none => exact Block.shows_empty
  | some l, none =>
      have hfirst := hgeneric (hgenerics l rfl)
      rw [zero_add, ← add_zero l.comments] at hfirst
      exact hfirst
  | none, some l => exact Block.shows_empty.add (hline _ (by decide) (hports l rfl))
  | some l, some l' =>
      have hport := hline "port" (by decide) (hports l' rfl)
      have hboth := (hgeneric (hgenerics l rfl)).add hport
      rwa [zero_add] at hboth

theorem shows_mapList {words : Bytes} (hwords : words.isPlain = true) {l : MapList}
    (h : l.InCode) : Doc.Shows false [p.mapList words l] false l.comments ∧
      Doc.Breaks (p.mapList words l) := by
  have hrows : TableRow.AllShow (listRows MapItem.trivia p.mapCells "," true l.items) _ :=
    shows_listRows (by decide) true fun m hm => p.quiet_mapCells (h m hm)
  have htable := Columns.shows_table hrows .line Doc.quiet_line p.settings.alignSignals [true, true]
  have hbreaks := breaks_withTail
    (Columns.breaks_table hrows Doc.quiet_line p.settings.alignSignals [true, true]) l.tail
  have hopening := p.isCode_opening hwords
  exact ⟨.wrap (shows_withTail htable l.tail) hbreaks hopening (by decide),
    .wrap hbreaks hopening (by decide)⟩

/-! ## Types and subprograms -/

theorem shows_physicalUnits {units : List PhysicalUnit} (h : ∀ u ∈ units, u.InCode) :
    (p.physicalUnits units).Shows (allComments PhysicalUnit.comments units) := by
  rw [physicalUnits, ← zero_add (allComments _ units)]
  refine Block.Shows.foldl (fun u hu b cs hb => ?_) Block.shows_empty
  rw [PhysicalUnit.comments, ← add_zero u.trivia.comments]
  refine hb.row u.trivia (.code (Doc.quiet_concat.mpr ?_))
  simp only [List.forall_mem_append, List.forall_mem_cons]
  refine ⟨⟨p.quiet_name (h u hu).name, ?_⟩, by simp +decide⟩
  split
  · rename_i x hx
    have hquiet := p.quiet_expr x ((h u hu).value x hx)
    simp +decide [hquiet]
  · simp

/-- The units stand between lines of their own. -/
theorem shows_rangeType {r : Expr} (hr : r.InCode) {units : List PhysicalUnit}
    (h : ∀ u ∈ units, u.InCode) :
    Doc.Shows false (p.rangeType r units) false (allComments PhysicalUnit.comments units) := by
  have hhead : ∀ d ∈ [p.keyword "range", .space, p.expr r], d.Quiet := by
    have hquiet := p.quiet_expr r hr
    simp +decide [hquiet]
  rw [rangeType]
  split
  · rename_i hnone
    rw [List.isEmpty_iff.mp hnone]
    exact .codes hhead
  · have hnest : Doc.Shows false [(p.physicalUnits units).nest] true _ :=
      (p.shows_physicalUnits h).nest
    have hword : (p.keyword "units").Quiet := p.quiet_word (by decide)
    have hunits := (hnest.after_code hword).concat
    have hend : Doc.Quiet (.concat [p.keyword "end", .space, p.keyword "units"]) := by simp +decide
    have hlines := (shows_closed hunits hend).concat
    exact (hlines.after_hardLine.concat.indent 1).after_codes hhead

/-- Behind a declaration come a semicolon and its comment. -/
theorem shows_semicolon (inline : Bytes) :
    Doc.Shows false [.concat [.text ";", Doc.inline inline]] true (RowTrivia.behind inline) ∧
      Doc.Breaks (.concat [.text ";", Doc.inline inline]) := by
  have hquiet : Doc.Quiet (.text ";") := by simp +decide
  refine ⟨((Doc.shows_inline inline).after_code hquiet).concat, .concat ?_⟩
  simpa using ⟨.inl hquiet, Doc.breaks_inline inline⟩

theorem shows_recordRows {cells : RecordField → List Doc} {fields : List RecordField}
    (hcells : ∀ f ∈ fields, ∀ c ∈ cells f, c.Quiet) (first : Bool) :
    TableRow.AllShow (recordType.rows cells first fields)
      (allComments RecordField.comments fields) := by
  induction fields generalizing first with
  | nil => exact .nil
  | cons f rest ih =>
      rw [List.forall_mem_cons] at hcells
      obtain ⟨hsemicolon, hbreaks⟩ := shows_semicolon f.trivia.inline
      exact .cons (.mk (Doc.shows_leadingLines _ _) hcells.1 hsemicolon hbreaks)
        (ih hcells.2 false)

theorem shows_recordType {name endLabel : Bytes} (hname : name.InCode) (hend : endLabel.InCode)
    {fields : List RecordField} (h : ∀ f ∈ fields, f.InCode) (tail : List Comment) :
    Doc.Shows false [p.recordType name fields endLabel tail] false
      (allComments RecordField.comments fields + Comment.texts tail) := by
  have hcells : ∀ f ∈ fields, ∀ c ∈ [p.names f.names, .text ":", p.subtype f.indication],
      c.Quiet := by
    intro f hf
    have hnames := p.quiet_names (h f hf).names
    simp +decide [hnames, (h f hf).indication]
  have htable := Columns.shows_table (shows_recordRows hcells true) Doc.Shows.hardLine
    Doc.quiet_hardLine true [p.settings.alignColons, true, false]
  have hblock : Block.Shows (if fields.isEmpty then {} else Block.add {}
      (Columns.table (recordType.rows (fun f => [p.names f.names, .text ":", p.subtype f.indication])
        true fields) .hardLine true [p.settings.alignColons, true, false]))
      (allComments RecordField.comments fields) := by
    split
    · rename_i hnone
      rw [List.isEmpty_iff.mp hnone]
      exact Block.shows_empty
    · have hadd := Block.shows_empty.add htable
      rwa [zero_add] at hadd
  have hbody := shows_closed (hblock.comments tail).nest
    (p.quiet_namedEnd "record" (Bytes.inCode_of_isPlain (by decide)) hend hname)
  exact (hbody.after_code (p.quiet_word (by decide))).concat

theorem shows_typeDecl {name : Bytes} (hname : name.InCode) {definition : Option TypeDef}
    (h : ∀ d ∈ definition, d.InCode) :
    Doc.Shows false [p.typeDecl name definition] false
      (anyComments TypeDef.comments definition) := by
  have hhead : ∀ d ∈ [p.keyword "type", .space, p.name name], d.Quiet := by simp +decide [hname]
  have his : ∀ d ∈ [p.keyword "type", .space, p.name name] ++ [.space, p.keyword "is", .space],
      d.Quiet := by simp +decide [hname]
  have hsemicolon : ∀ d ∈ [Doc.text ";"], d.Quiet := by simp +decide
  match definition with
  | none => exact (Doc.Shows.codes hsemicolon).after_codes hhead |>.concat
  | some (.enum literals) =>
      have hliterals : (parens (literals.map p.leaf)).Quiet := by
        refine quiet_parens fun d hd => ?_
        obtain ⟨l, hl, rfl⟩ := List.mem_map.mp hd
        exact p.quiet_leaf (h _ rfl l hl)
      exact ((Doc.Shows.codes hsemicolon).after_code hliterals).after_codes his |>.concat
  | some (.range r units) =>
      obtain ⟨hr, hunits⟩ := h _ rfl
      have hrange := (p.shows_rangeType hr hunits).append (Doc.Shows.codes hsemicolon)
      rw [add_zero] at hrange
      have hall := hrange.after_codes his
      rw [← List.append_assoc] at hall
      exact hall.concat
  | some (.array indexes element) =>
      obtain ⟨hindexes, helement⟩ := h _ rfl
      have hlist := p.quiet_exprList hindexes
      have hbody : ∀ d ∈ [p.keyword "array", .space, .text "(", p.exprList indexes, .text ")",
          .space, p.keyword "of", .space, p.subtype element, .text ";"], d.Quiet := by
        simp +decide [hlist, helement]
      exact (Doc.Shows.codes hbody).after_codes his |>.concat
  | some (.record fields endLabel tail) =>
      obtain ⟨hfields, hend⟩ := h _ rfl
      exact (p.shows_recordType hname hend hfields tail).after_codes his |>.concat
  | some (.access target) =>
      have htarget := p.quiet_subtype (h _ rfl)
      have hbody : ∀ d ∈ [p.keyword "access", .space, p.subtype target, .text ";"], d.Quiet := by
        simp +decide [htarget]
      exact (Doc.Shows.codes hbody).after_codes his |>.concat

theorem shows_subprogramSpec {s : SubprogramSpec} (h : s.InCode) :
    Doc.Shows false [p.subprogramSpec s] false s.comments := by
  have hfront : (Doc.words [p.keyword s.purity, p.keyword s.kind, p.name s.name]).Quiet :=
    Doc.quiet_words (by simp [h.purity, h.kind, h.name])
  have hresult := p.quiet_clause "return" (by decide) p.quiet_expr h.result
  have hparams : Doc.Shows false (if s.params.isEmpty && s.tail.isEmpty then []
      else [Doc.wrap "(" (withTail (p.interfaceTable s.params) s.tail) ")"]) false s.comments := by
    split
    · rename_i hnone
      rw [Bool.and_eq_true, List.isEmpty_iff, List.isEmpty_iff] at hnone
      rw [SubprogramSpec.comments, hnone.1, hnone.2]
      exact .nil
    · exact .wrap (shows_withTail (p.shows_interfaceTable h.params) s.tail)
        (breaks_withTail (p.breaks_interfaceTable h.params) s.tail) (by decide) (by decide)
  have hall := (hparams.append (Doc.Shows.codes hresult)).after_code hfront
  rw [add_zero] at hall
  exact hall.concat

theorem shows_component {name endLabel : Bytes} (hname : name.InCode) (hend : endLabel.InCode)
    {generics ports : Option InterfaceList} (hgenerics : ∀ l ∈ generics, l.InCode)
    (hports : ∀ l ∈ ports, l.InCode) (tail : List Comment) :
    Doc.Shows false [p.component name generics ports endLabel tail] false
      (anyComments InterfaceList.comments generics + anyComments InterfaceList.comments ports +
        Comment.texts tail) := by
  have hhead : ∀ d ∈ [p.keyword "component", .space, p.name name, .space, p.keyword "is"],
      d.Quiet := by simp +decide [hname]
  have hbody := shows_closed ((p.shows_interfaceBlock hgenerics hports).comments tail).nest
    (p.quiet_namedEnd "component" (Bytes.inCode_of_isPlain (by decide)) hend hname)
  exact (hbody.after_codes hhead).concat

/-! ## Declarative parts -/

/-- Declarations, `begin`, and statements. -/
theorem shows_sections {decls stmts : Block} {cs cs' : Multiset Bytes} (hdecls : decls.Shows cs)
    (hstmts : stmts.Shows cs') :
    Doc.Shows false [decls.nest, .hardLine, p.keyword "begin", stmts.nest] true (cs + cs') := by
  have hbegin : (p.keyword "begin").Quiet := p.quiet_word (by decide)
  exact hdecls.nest.cons (hstmts.nest.after_code hbegin).after_hardLine

end Printer

/-- The row shows those of the texts that are comments. -/
inductive Printer.DeclRow.Shows : Printer.DeclRow → Multiset Bytes → Prop where
  | object {t : RowTrivia} {cells : List Doc} (hcells : ∀ c ∈ cells, c.Quiet) :
      Shows (.object t cells) t.comments
  | single {t : RowTrivia} {body : Doc} {cs : Multiset Bytes}
      (hbody : Doc.Shows false [body] false cs) : Shows (.single t body) (t.comments + cs)

/-- The rows show those of the texts that are comments. -/
inductive Printer.DeclRow.AllShow : List Printer.DeclRow → Multiset Bytes → Prop where
  | nil : AllShow [] 0
  | cons {row : Printer.DeclRow} {rows : List Printer.DeclRow} {cs cs' : Multiset Bytes}
      (hrow : row.Shows cs) (hrows : AllShow rows cs') : AllShow (row :: rows) (cs + cs')

/-! ### Runs of rows -/

namespace Columns

variable {α : Type} (starts : α → α → Bool)

theorem runs_cons (item : α) (rest : List α) :
    (runs starts rest = [] ∧ runs starts (item :: rest) = [[item]]) ∨
    (∃ others, runs starts (item :: rest) = [item] :: others ∧ runs starts rest = others) ∨
    (∃ next run others, runs starts rest = (next :: run) :: others ∧ starts item next = false ∧
      runs starts (item :: rest) = (item :: next :: run) :: others) := by
  match hrest : runs starts rest with
  | [] => exact .inl ⟨rfl, by rw [runs, hrest]⟩
  | [] :: others => exact .inr (.inl ⟨[] :: others, by rw [runs, hrest], rfl⟩)
  | (next :: run) :: others =>
      by_cases hstarts : starts item next = true
      · refine .inr (.inl ⟨(next :: run) :: others, ?_, rfl⟩)
        simp [runs, hrest, hstarts]
      · refine .inr (.inr ⟨next, run, others, rfl, by simpa using hstarts, ?_⟩)
        simp [runs, hrest, hstarts]

/-- Cutting items into runs keeps them all in order. -/
theorem flatten_runs (items : List α) : (runs starts items).flatten = items := by
  induction items with
  | nil => rfl
  | cons item rest ih =>
      rcases runs_cons starts item rest with ⟨hrest, hruns⟩ | ⟨others, hruns, hrest⟩ |
        ⟨next, run, others, hrest, -, hruns⟩
      · rw [hrest] at ih
        rw [hruns, ← ih]
        rfl
      · rw [hruns, ← hrest, List.flatten_cons, ih, List.singleton_append]
      · rw [hrest] at ih
        rw [hruns, ← ih]
        rfl

/-- Within a run only the first item starts one. -/
theorem chain_of_mem_runs {items run : List α} (h : run ∈ runs starts items) :
    run.IsChain fun a b => starts a b = false := by
  induction items generalizing run with
  | nil => simp [runs] at h
  | cons item rest ih =>
      rcases runs_cons starts item rest with ⟨-, hruns⟩ | ⟨others, hruns, hrest⟩ |
        ⟨next, run', others, hrest, hstarts, hruns⟩
      · rw [hruns, List.mem_singleton] at h
        rw [h]
        exact .singleton item
      · rw [hruns, List.mem_cons] at h
        rcases h with rfl | h
        · exact .singleton item
        · exact ih (hrest ▸ h)
      · rw [hruns, List.mem_cons] at h
        rcases h with rfl | h
        · exact .cons_cons hstarts (ih (by simp [hrest]))
        · exact ih (by simp [hrest, h])

/-- Behind the first item of a run none starts one. -/
theorem exists_starts_eq_false {items rest : List α} {first item : α}
    (hrun : (first :: rest) ∈ runs starts items) (h : item ∈ rest) :
    ∃ previous, starts previous item = false := by
  have hchain := chain_of_mem_runs starts hrun
  clear hrun
  induction rest generalizing first with
  | nil => cases h
  | cons next rest ih =>
      rw [List.isChain_cons_cons] at hchain
      rcases List.mem_cons.mp h with rfl | h
      · exact ⟨first, hchain.1⟩
      · exact ih h hchain.2

theorem mem_of_mem_runs {items run : List α} {item : α} (hrun : run ∈ runs starts items)
    (h : item ∈ run) : item ∈ items := by
  rw [← flatten_runs starts items]
  exact List.mem_flatten.mpr ⟨run, hrun, h⟩

end Columns

namespace Printer

variable (p : Printer)

theorem DeclRow.AllShow.split {xs ys : List DeclRow} {cs : Multiset Bytes}
    (h : AllShow (xs ++ ys) cs) : ∃ as bs, cs = as + bs ∧ AllShow xs as ∧ AllShow ys bs := by
  induction xs generalizing cs with
  | nil => exact ⟨0, cs, (zero_add cs).symm, .nil, h⟩
  | cons x xs ih =>
      cases h with
      | @cons _ _ cs' _ hrow hrows =>
          obtain ⟨as, bs, rfl, hxs, hys⟩ := ih hrows
          exact ⟨cs' + as, bs, (add_assoc _ _ _).symm, .cons hrow hxs, hys⟩

/-- The rows of a table below its first row keep the lines above them. -/
theorem shows_objectRows {row : DeclRow} {rest : List DeclRow} {cs : Multiset Bytes}
    (hrow : ∃ t cells, row = .object t cells)
    (hchain : (row :: rest).IsChain fun a b => DeclRow.starts a b = false)
    (hrest : DeclRow.AllShow rest cs) :
    TableRow.AllShow (rest.map (objectRow false)) cs := by
  induction hrest generalizing row with
  | nil => exact .nil
  | @cons next rest _ _ hnext hrest ih =>
      obtain ⟨t, cells, rfl⟩ := hrow
      rw [List.isChain_cons_cons] at hchain
      obtain ⟨hstarts, hchain⟩ := hchain
      cases hnext with
      | @object t' cells' hcells =>
          obtain ⟨hsemicolon, hbreaks⟩ := shows_semicolon t'.inline
          exact .cons (.mk (Doc.shows_leadingLines _ _) hcells hsemicolon hbreaks)
            (ih ⟨t', cells', rfl⟩ hchain)
      | single hbody => exact absurd hstarts (by simp [DeclRow.starts])

/-- A run is a single declaration or a table of objects. -/
theorem shows_addRun {run : List DeclRow} {b : Block} {cs cs' : Multiset Bytes}
    (hb : b.Shows cs) (hchain : run.IsChain fun a b => DeclRow.starts a b = false)
    (hrun : DeclRow.AllShow run cs') : (p.addRun b run).Shows (cs + cs') := by
  cases hrun with
  | nil =>
      rw [add_zero]
      exact hb
  | @cons row rest _ cs' hrow hrest =>
      cases hrow with
      | @single t body _ hbody =>
          have hlast : rest = [] := by
            cases rest with
            | nil => rfl
            | cons next rest =>
                rw [List.isChain_cons_cons] at hchain
                exact absurd hchain.1 (by simp [DeclRow.starts])
          subst hlast
          cases hrest
          rw [add_zero]
          exact hb.row t hbody
      | @object t cells hcells =>
          obtain ⟨hsemicolon, hbreaks⟩ := shows_semicolon t.inline
          have hrows := shows_objectRows ⟨t, cells, rfl⟩ hchain hrest
          have hfirst : (objectRow true (.object t cells)).Shows (0 + RowTrivia.behind t.inline) :=
            .mk Doc.Shows.nil hcells hsemicolon hbreaks
          have htable := Columns.shows_table (.cons hfirst hrows) Doc.Shows.hardLine
            Doc.quiet_hardLine true p.objectPad
          have hrun := (hb.leading t).add htable
          rw [zero_add, add_assoc, ← add_assoc (RowTrivia.above t)] at hrun
          exact hrun

theorem shows_addRows {rows : List DeclRow} {b : Block} {cs cs' : Multiset Bytes}
    (hb : b.Shows cs) (hrows : DeclRow.AllShow rows cs') :
    (p.addRows b rows).Shows (cs + cs') := by
  have hchain : ∀ run ∈ Columns.runs DeclRow.starts rows,
      run.IsChain fun a b => DeclRow.starts a b = false :=
    fun run hrun => Columns.chain_of_mem_runs DeclRow.starts hrun
  rw [← Columns.flatten_runs DeclRow.starts rows] at hrows
  rw [addRows]
  generalize Columns.runs DeclRow.starts rows = runs at hrows hchain
  induction runs generalizing b cs cs' with
  | nil =>
      cases hrows
      rw [add_zero]
      exact hb
  | cons run runs ih =>
      rw [List.forall_mem_cons] at hchain
      obtain ⟨as, bs, rfl, hrun, hrest⟩ := hrows.split
      rw [← add_assoc]
      exact ih (p.shows_addRun hb hchain.1 hrun) hrest hchain.2

/-! ### Declarations -/

/-- A declaration without rows inside it. -/
theorem shows_codeRow {t : RowTrivia} {body : Doc} (hbody : body.Quiet) :
    (DeclRow.single t body).Shows t.comments := by
  have hrow := DeclRow.Shows.single (t := t) (.code hbody)
  rwa [add_zero] at hrow

mutual

theorem shows_declRow (d : Decl) (h : d.InCode) : (p.declRow d).Shows d.comments := by
  match d, h with
  | .object t _ word ns s x, ⟨hword, hns, hs, hx⟩ =>
      have hnames := p.quiet_names hns
      have hdefault := p.quiet_initializer hx
      exact .object (by simp +decide [hword, hnames, hs, hdefault])
  | .type t name definition, ⟨hname, hdefinition⟩ =>
      exact .single (p.shows_typeDecl hname hdefinition)
  | .subtype t name s, ⟨hname, hs⟩ =>
      exact shows_codeRow (by simp +decide [hname, hs])
  | .alias t name s target, ⟨hname, hs, htarget⟩ =>
      have hindication : ∀ d ∈ match s with
          | some s => [Doc.text " : ", p.subtype s]
          | none => [], d.Quiet := by
        cases s with
        | none => simp
        | some s => simp +decide [hs s rfl]
      have hquiet := p.quiet_expr target htarget
      refine shows_codeRow (Doc.quiet_concat.mpr ?_)
      simp only [List.forall_mem_append]
      exact ⟨⟨by simp +decide [hname], hindication⟩, by simp +decide [hquiet]⟩
  | .component t name generics ports endLabel tail, ⟨hname, hgenerics, hports, hend⟩ =>
      have hrow : (p.declRow (.component t name generics ports endLabel tail)).Shows _ :=
        .single (p.shows_component hname hend hgenerics hports tail)
      rw [← add_assoc, ← add_assoc] at hrow
      exact hrow
  | .attribute t name mark, ⟨hname, hmark⟩ =>
      have hquiet := p.quiet_expr mark hmark
      exact shows_codeRow (by simp +decide [hname, hquiet])
  | .attributeSpec t name entities entityClass x, ⟨hname, hentities, hclass, hx⟩ =>
      have hlist := p.quiet_exprList hentities
      have hvalue := p.quiet_value hx
      exact shows_codeRow (by simp +decide [hname, hlist, hclass, hvalue])
  | .subprogram t spec, h =>
      have hsemicolon : Doc.Quiet (.text ";") := by simp +decide
      have hbody := (p.shows_subprogramSpec h).append (.code hsemicolon)
      rw [add_zero] at hbody
      exact .single hbody.concat
  | .subprogramBody t spec decls declTail stmts endLabel tail, ⟨hspec, hdecls, hstmts, hend⟩ =>
      have hupper := (p.shows_addRows Block.shows_empty (shows_declRows decls hdecls)).comments
        declTail
      have hlower := (p.shows_seqBlock stmts (SeqStmt.allInCode_iff.mpr hstmts)
        Block.shows_empty).comments tail
      have hclose := p.quiet_namedEnd _ hspec.kind hend hspec.name
      have hsections := (p.shows_sections hupper hlower).append
        (Doc.Shows.code hclose).after_hardLine
      have hfront : ∀ d ∈ [.space, p.keyword "is"], d.Quiet := by simp +decide
      have hbody := (p.shows_subprogramSpec hspec).cons (hsections.after_codes hfront)
      have hrow : (p.declRow (.subprogramBody t spec decls declTail stmts endLabel tail)).Shows _ :=
        .single hbody.concat
      rw [zero_add, zero_add, add_zero] at hrow
      simp only [← add_assoc] at hrow
      exact hrow
  | .use clause, h => exact shows_codeRow (p.quiet_useClause h)
  | .raw t tokens, h => exact shows_codeRow (p.quiet_raw h.1 h.2)

theorem shows_declRows (ds : List Decl) (h : Decl.AllInCode ds) :
    DeclRow.AllShow (p.declRows ds) (Decl.allComments ds) := by
  match ds, h with
  | [], _ => exact .nil
  | d :: rest, ⟨hd, hrest⟩ => exact .cons (shows_declRow d hd) (shows_declRows rest hrest)

end

theorem shows_declBlock {decls : List Decl} (h : ∀ d ∈ decls, d.InCode) {b : Block}
    {cs : Multiset Bytes} (hb : b.Shows cs) :
    (p.declBlock b decls).Shows (cs + Decl.allComments decls) :=
  p.shows_addRows hb (p.shows_declRows decls (Decl.allInCode_iff.mpr h))

end Printer

end VhdlStyle
