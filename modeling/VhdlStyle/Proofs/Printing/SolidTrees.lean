import VhdlStyle.Proofs.Printing.SolidCode
import VhdlStyle.Proofs.Printing.Units

/-! # Design trees show something on each line

Statements, declarations and units of a tree without gaps are solid documents if its comments show
something on each of their lines. The recursion follows the printer. -/

namespace VhdlStyle

open Bytes (inked)
open Comment (AllInked)
open Doc (Spaced Solid Level)

namespace Printer

variable (p : Printer)

/-! ## Interface lists and maps -/

theorem inked_opening {word : Bytes} (hword : word.isPlain = true) :
    inked false (p.casing.keyword word ++ " (") = true :=
  Bytes.inked_append (p.inked_word hword) (by decide)

theorem spaced_interfaceTable {items : List InterfaceItem} (h : ∀ i ∈ items, i.InCode)
    (hfull : ∀ i ∈ items, i.Complete)
    (hcs : AllInked (allComments InterfaceItem.comments items)) :
    Spaced 1 [p.interfaceTable items] 1 := by
  have hcells := fun i hi => p.spaced_interfaceCells (h i hi) (hfull i hi)
  have hrows : ∀ row ∈ listRows InterfaceItem.trivia p.interfaceCells ";" true items,
      Spaced 1 row.parts 0 :=
    spaced_listRows (by decide) (Comment.allInked_all.mp hcs) hcells true
  exact .columns_any hrows (.line (Nat.zero_le 1)) true p.interfacePad

theorem solid_interfaceClause (word : Bytes) (hword : word.isPlain = true) {l : InterfaceList}
    (h : l.InCode) (hfull : l.Complete) (hcs : AllInked l.comments) :
    (p.interfaceClause word l).Solid := by
  obtain ⟨hitems, htail⟩ := Comment.allInked_add.mp hcs
  exact Doc.solid_bracket (spaced_withTail (p.spaced_interfaceTable h hfull hitems) htail)
    (p.inked_opening hword) (by decide)

theorem solid_interfaceBlock {generics ports : Option InterfaceList}
    (hgenerics : ∀ l ∈ generics, l.InCode) (hports : ∀ l ∈ ports, l.InCode)
    (hgenerics' : ∀ l ∈ generics, l.Complete) (hports' : ∀ l ∈ ports, l.Complete)
    (hgenericComments : AllInked (anyComments InterfaceList.comments generics))
    (hportComments : AllInked (anyComments InterfaceList.comments ports)) :
    (p.interfaceBlock generics ports).Solid := by
  rw [Comment.allInked_any] at hgenericComments hportComments
  have hfirst : (p.interfaceBlock generics none).Solid := by
    cases generics with
    | none => exact Block.solid_empty
    | some l => exact Block.solid_empty.add (p.solid_interfaceClause "generic" (by decide)
        (hgenerics l rfl) (hgenerics' l rfl) (hgenericComments l rfl))
  cases ports with
  | none => exact hfirst
  | some l => exact hfirst.add (p.solid_interfaceClause "port" (by decide)
      (hports l rfl) (hports' l rfl) (hportComments l rfl))

theorem solid_mapList (words : Bytes) (hwords : words.isPlain = true) {l : MapList}
    (h : l.InCode) (hfull : l.Complete) (hcs : AllInked l.comments) :
    (p.mapList words l).Solid := by
  obtain ⟨hitems, htail⟩ := Comment.allInked_add.mp hcs
  have hcells := fun m hm => p.spaced_mapCells (h m hm) (hfull m hm)
  have hrows : ∀ row ∈ listRows MapItem.trivia p.mapCells "," true l.items,
      Spaced 1 row.parts 0 :=
    spaced_listRows (by decide) (Comment.allInked_all.mp hitems) hcells true
  have htable := Spaced.columns_any hrows (.line (Nat.zero_le 1)) p.settings.alignSignals
    [true, true]
  exact Doc.solid_wrap (spaced_withTail htable htail) (p.inked_opening hwords) (by decide)

/-! ## Sequential statements -/

/-- Lines in the middle, and the line below them. -/
theorem spaced_closed {body close : Doc} (hbody : body.Level) (hclose : close.Solid) :
    Spaced 0 [body, .hardLine, close] 0 :=
  .cons hbody (.next (fun _ => .hardLine) hclose (by simp))

/-- A branch stands on a new line unless it is the first. -/
theorem spaced_between (first : Bool) :
    Spaced (if first then 2 else 0) (if first then [] else [.hardLine]) 2 := by
  cases first with
  | false => exact (Spaced.hardLine (Nat.zero_le 1)).mono (Nat.le_refl 0) (by decide)
  | true => exact .nil

mutual

theorem solid_seqStmt (s : SeqStmt) (h : s.InCode) (hfull : s.Complete) (hcs : AllInked s.inside) :
    (p.seqStmt s).Solid := by
  match s, h, hfull, hcs with
  | .signalAssign h target arms, ⟨hh, htarget, harms⟩, ⟨htarget', _, harms'⟩, _ =>
      exact p.solid_labeled hh (p.solid_signalAssign htarget htarget' harms harms')
  | .varAssign h target x, ⟨hh, htarget, hx⟩, ⟨htarget', hx'⟩, _ =>
      have hvalue := p.level_value hx hx'
      rw [seqStmt]
      exact p.solid_labeled hh (by simp +decide [htarget, htarget', hvalue])
  | .ifStmt h branches endLabel, ⟨hh, hbranches, hend⟩, ⟨hguarded, hbranches'⟩, hcs =>
      have hclose := p.solid_stmtEnd [p.keyword "if"] (by simp +decide) hend hh
      have harms := spaced_ifBranches true branches hbranches hbranches' hcs fun _ => hguarded.1
      exact p.solid_labeled hh (harms.append (.next (fun _ => .hardLine) hclose (by simp))).concat
  | .caseStmt h matching selector alts endLabel tail, ⟨hh, hselector, halts, hend⟩,
      ⟨hselector', halts'⟩, hcs =>
      obtain ⟨haltComments, htail⟩ := Comment.allInked_add.mp hcs
      have hmark : ∀ d ∈ if matching then [Doc.text "?"] else [], d.Level := by
        cases matching <;> simp +decide
      have hwords : ∀ d ∈ p.keyword "case" :: (if matching then [Doc.text "?"] else []),
          d.Level := List.forall_mem_cons.mpr ⟨p.level_word (by decide), hmark⟩
      have hvalue := p.level_value hselector hselector'
      have hfront : ∀ d ∈ [.space, p.value selector, .space, p.keyword "is"], d.Level := by
        simp +decide [hvalue]
      have hblock := (solid_caseAlts alts halts halts' haltComments
        Block.solid_empty).comments htail
      have hbody := spaced_closed hblock.nest (p.solid_stmtEnd _ hwords hend hh)
      have hcase : (p.keyword "case").Solid := p.solid_word (by decide)
      exact p.solid_labeled hh
        ((Spaced.solids hcase hmark).append ((Spaced.levels hfront).append hbody)).concat
  | .loop h scheme stmts endLabel tail, ⟨hh, hscheme, hstmts, hend⟩, ⟨hscheme', hstmts'⟩, hcs =>
      obtain ⟨hstmtComments, htail⟩ := Comment.allInked_add.mp hcs
      have hclose := p.solid_stmtEnd [p.keyword "loop"] (by simp +decide) hend hh
      have hblock := (solid_seqBlock stmts hstmts hstmts' hstmtComments
        Block.solid_empty).comments htail
      have hloop : Spaced 2 [p.keyword "loop"] 0 := p.solid_word (by decide)
      have hfront := Spaced.stills (Nat.le_refl 2) (p.still_loopScheme hscheme hscheme')
      exact p.solid_labeled hh
        (hfront.append (hloop.cons (spaced_closed hblock.nest hclose))).concat
  | .loopControl h word loopLabel cond, ⟨hh, hword, hlabel, hcond⟩, hcond', _ =>
      have hclause := p.still_clause "when" (by decide)
        fun x hx => p.solid_value (hcond x hx) (hcond' x hx)
      have htarget : ∀ d ∈ if loopLabel.isEmpty then [] else [.space, p.name loopLabel],
          d.Still := by
        have hname := (p.firm_name hlabel).still
        split
        · simp
        · simp [Doc.still_space, hname]
      have hsemicolon : Solid (.text ";") := Doc.solid_text (by decide)
      refine p.solid_labeled hh (Spaced.of_mem ?_ ⟨_, by simp, hsemicolon⟩).concat
      simp only [List.forall_mem_append, List.forall_mem_cons]
      exact ⟨⟨⟨(p.firm_keyword hword).still, htarget⟩, hclause⟩, hsemicolon.still, by simp⟩
  | .returnStmt h x, ⟨hh, hx⟩, hx', _ =>
      have hresult : ∀ d ∈ match x with
          | some x => [Doc.space, p.value x]
          | none => [], d.Level := by
        cases x with
        | none => simp
        | some x =>
            have hvalue := p.level_value (hx x rfl) (hx' x rfl)
            simp [hvalue]
      refine p.solid_labeled hh (Doc.solid_concat (p.solid_word (by decide)) ?_)
      exact List.forall_mem_append.mpr ⟨hresult, by simp +decide⟩
  | .nullStmt h, hh, _, _ =>
      rw [seqStmt]
      exact p.solid_labeled hh (by simp +decide)
  | .waitStmt h signals cond time, ⟨hh, hsignals, hcond, htime⟩, ⟨hsignals', hcond', htime'⟩, _ =>
      have huntil := p.still_clause "until" (by decide)
        fun x hx => p.solid_value (hcond x hx) (hcond' x hx)
      have hfor := p.still_clause "for" (by decide)
        fun x hx => p.solid_expr x (htime x hx) (htime' x hx)
      have hon : ∀ d ∈ if signals.isEmpty then []
          else [.space, p.keyword "on", .space, p.exprList signals], d.Level := by
        split
        · simp
        · rename_i hne
          have hlist := (p.solid_exprList hsignals ⟨by simpa using hne, hsignals'⟩).level
          simp +decide [hlist]
      have hwait : Spaced 2 [p.keyword "wait"] 0 := p.solid_word (by decide)
      have hfront := (hwait.cons (Spaced.levels hon)).append
        (.levels fun d hd => (huntil d hd).level)
      have hall := hfront.append (.levels fun d hd => (hfor d hd).level)
      rw [seqStmt]
      exact p.solid_labeled hh (hall.append (Doc.level_text (by decide))).concat
  | .reportStmt h message severity, ⟨hh, hmessage, hseverity⟩, ⟨hmessage', hseverity'⟩, _ =>
      have hclause := p.still_clause "severity" (by decide)
        fun x hx => p.solid_expr x (hseverity x hx) (hseverity' x hx)
      have hvalue := p.level_value hmessage hmessage'
      have hfront : Spaced 2 [p.keyword "report", .space, p.value message] 0 :=
        .solids (p.solid_word (by decide)) (by simp [hvalue])
      have hall := hfront.append (.levels fun d hd => (hclause d hd).level)
      rw [seqStmt]
      exact p.solid_labeled hh (hall.append (Doc.level_text (by decide))).concat
  | .assertStmt h a, ⟨hh, ha⟩, ha', _ => exact p.solid_labeled hh (p.solid_assertion ha ha')
  | .call h callee, ⟨hh, hcallee⟩, hcallee', _ =>
      have hvalue := p.solid_value hcallee hcallee'
      rw [seqStmt]
      exact p.solid_labeled hh (by simp +decide [hvalue])

theorem solid_seqBlock (ss : List SeqStmt) (h : SeqStmt.AllInCode ss)
    (hfull : SeqStmt.AllComplete ss) (hcs : AllInked (SeqStmt.allComments ss)) {b : Block}
    (hb : b.Solid) : (p.seqBlock b ss).Solid := by
  match ss, h, hfull, hcs with
  | [], _, _, _ => exact hb
  | s :: rest, ⟨hs, hrest⟩, ⟨hs', hrest'⟩, hcs =>
      rw [SeqStmt.allComments, SeqStmt.comments_eq, Comment.allInked_add,
        Comment.allInked_add] at hcs
      obtain ⟨⟨htrivia, hinside⟩, hcomments⟩ := hcs
      exact solid_seqBlock rest hrest hrest' hcomments
        (hb.row htrivia (solid_seqStmt s hs hs' hinside))

theorem spaced_ifBranches (first : Bool) (bs : List IfBranch) (h : IfBranch.AllInCode bs)
    (hfull : IfBranch.AllComplete bs) (hcs : AllInked (IfBranch.allComments bs))
    (hne : first = true → bs ≠ []) :
    Spaced (if first then 2 else 0) (p.ifBranches first bs) 0 := by
  match bs, h, hfull, hcs with
  | [], _, _, _ =>
      obtain rfl : first = false := Bool.eq_false_iff.mpr fun hfirst => hne hfirst rfl
      exact .nil
  | .mk cond stmts tail :: rest, ⟨⟨hcond, hstmts⟩, hrest⟩, ⟨⟨hcond', hstmts'⟩, hrest'⟩, hcs =>
      rw [IfBranch.allComments, IfBranch.comments, Comment.allInked_add,
        Comment.allInked_add] at hcs
      obtain ⟨⟨hstmtComments, htail⟩, hcomments⟩ := hcs
      have hblock := (solid_seqBlock stmts hstmts hstmts' hstmtComments
        Block.solid_empty).comments htail
      have hthen : ∀ d ∈ if cond.isSome then [p.keyword "then"] else [], d.Level := by
        split <;> simp +decide
      have hothers := spaced_ifBranches false rest hrest hrest' hcomments (by simp)
      have hhead := (spaced_between first).append (p.spaced_branchHead first hcond hcond')
      rw [ifBranches]
      exact ((hhead.append (.levels hthen)).append hblock.nest).append hothers

theorem solid_caseAlts (as : List CaseAlt) (h : CaseAlt.AllInCode as)
    (hfull : CaseAlt.AllComplete as) (hcs : AllInked (CaseAlt.allComments as)) {b : Block}
    (hb : b.Solid) : (p.caseAlts b as).Solid := by
  match as, h, hfull, hcs with
  | [], _, _, _ => exact hb
  | .mk t choices stmts :: rest, ⟨⟨hchoices, hstmts⟩, hrest⟩, ⟨⟨hchoices', hstmts'⟩, hrest'⟩, hcs =>
      rw [CaseAlt.allComments, CaseAlt.comments, RowTrivia.comments, Comment.allInked_add,
        Comment.allInked_add, Comment.allInked_add] at hcs
      obtain ⟨⟨⟨habove, hbehind⟩, hstmtComments⟩, hcomments⟩ := hcs
      have hblock := solid_seqBlock stmts hstmts hstmts' hstmtComments Block.solid_empty
      have hlist := (p.solid_choices hchoices hchoices').level
      have hinline := Doc.level_inline hbehind
      refine solid_caseAlts rest hrest hrest' hcomments ((hb.leading habove).add ?_)
      exact Doc.solid_concat (p.solid_word (by decide))
        (by simp +decide [hlist, hinline, hblock.nest])

end

/-! ## Types and subprograms -/

theorem solid_physicalUnits {units : List PhysicalUnit} (h : ∀ u ∈ units, u.InCode)
    (hfull : ∀ u ∈ units, u.Complete) (hcs : AllInked (allComments PhysicalUnit.comments units)) :
    (p.physicalUnits units).Solid := by
  rw [Comment.allInked_all] at hcs
  refine Block.solid_empty.foldl fun u hu b hb => hb.row (hcs u hu) ?_
  have hname := p.solid_name (h u hu).name (hfull u hu).name
  have hvalue : ∀ d ∈ match u.value with
      | some x => [Doc.text " = ", p.expr x]
      | none => [], d.Level := by
    split
    · rename_i x hx
      have hexpr := p.level_of_complete ((h u hu).value x hx) ((hfull u hu).value x hx)
      simp +decide [hexpr]
    · simp
  exact Doc.solid_concat hname (List.forall_mem_append.mpr ⟨hvalue, by simp +decide⟩)

theorem spaced_rangeType {r : Expr} (hr : r.InCode) (hr' : r.Complete) {units : List PhysicalUnit}
    (h : ∀ u ∈ units, u.InCode) (hfull : ∀ u ∈ units, u.Complete)
    (hcs : AllInked (allComments PhysicalUnit.comments units)) :
    Spaced 2 (p.rangeType r units) 0 := by
  have hexpr := p.level_of_complete hr hr'
  have hhead : Spaced 2 [p.keyword "range", .space, p.expr r] 0 :=
    .solids (p.solid_word (by decide)) (by simp [hexpr])
  rw [rangeType]
  split
  · exact hhead
  · have hnest := (p.solid_physicalUnits h hfull hcs).nest
    have hunits : Solid (.concat [p.keyword "units", (p.physicalUnits units).nest]) := by
      simp +decide [hnest]
    have hend : Solid (.concat [p.keyword "end", .space, p.keyword "units"]) := by simp +decide
    exact hhead.append ((Block.solid_empty.add hunits).add hend).nest

/-- Behind a declaration come a semicolon and its comment. -/
theorem level_semicolon {inline : Bytes} (h : AllInked (RowTrivia.behind inline)) :
    Level (.concat [.text ";", Doc.inline inline]) := by
  have hinline := Doc.level_inline h
  simp +decide [hinline]

theorem spaced_recordRows {cells : RecordField → List Doc} {fields : List RecordField}
    (hcells : ∀ f ∈ fields, Spaced 2 (cells f) 0)
    (hcs : ∀ f ∈ fields, AllInked f.comments) :
    ∀ row ∈ recordType.rows cells false fields, Spaced 1 row.parts 0 := by
  induction fields with
  | nil => simp [recordType.rows]
  | cons f rest ih =>
      rw [List.forall_mem_cons] at hcells hcs
      obtain ⟨habove, hbehind⟩ := Comment.allInked_add.mp hcs.1
      rw [recordType.rows, List.forall_mem_cons]
      exact ⟨TableRow.spaced_parts habove _ hcells.1 (level_semicolon hbehind), ih hcells.2 hcs.2⟩

theorem solid_recordType {name endLabel : Bytes} (hname : name.InCode) (hend : endLabel.InCode)
    {fields : List RecordField} (h : ∀ f ∈ fields, f.InCode) (hfull : ∀ f ∈ fields, f.Complete)
    {tail : List Comment} (hfields : AllInked (allComments RecordField.comments fields))
    (htail : AllInked (Comment.texts tail)) :
    (p.recordType name fields endLabel tail).Solid := by
  rw [Comment.allInked_all] at hfields
  have hcells : ∀ f ∈ fields, Spaced 2 [p.names f.names, .text ":", p.subtype f.indication] 0 := by
    intro f hf
    have hnames := p.solid_names (h f hf).names (hfull f hf).names
    have hsubtype := (p.solid_subtype (h f hf).indication (hfull f hf).indication).level
    exact .solids hnames (by simp +decide [hsubtype])
  have hblock : Block.Solid (if fields.isEmpty then {} else Block.add {}
      (Columns.table (recordType.rows
        (fun f => [p.names f.names, .text ":", p.subtype f.indication]) true fields) .hardLine true
          [p.settings.alignColons, true, false])) := by
    cases fields with
    | nil => exact Block.solid_empty
    | cons f rest =>
        rw [List.forall_mem_cons] at hfields hcells
        obtain ⟨habove, hbehind⟩ := Comment.allInked_add.mp hfields.1
        have hfirst := TableRow.spaced_parts_first habove hcells.1 (level_semicolon hbehind)
        exact Block.solid_empty.add (Spaced.columns hfirst (spaced_recordRows hcells.2 hfields.2)
          (.hardLine (Nat.zero_le 1)) true _)
  have hbody := spaced_closed (hblock.comments htail).nest
    (p.solid_namedEnd "record" (Bytes.inCode_of_isPlain (by decide)) hend hname)
  have hrecord : Spaced 2 [p.keyword "record"] 0 := p.solid_word (by decide)
  exact (hrecord.cons hbody).concat

theorem solid_typeDecl {name : Bytes} (hname : name.InCode) {definition : Option TypeDef}
    (h : ∀ d ∈ definition, d.InCode) (hfull : ∀ d ∈ definition, d.Complete)
    (hcs : AllInked (anyComments TypeDef.comments definition)) :
    (p.typeDecl name definition).Solid := by
  have hhead : Spaced 2 [p.keyword "type", .space, p.name name] 0 :=
    .solids (p.solid_word (by decide)) (by simp [hname])
  have his : Spaced 2 ([p.keyword "type", .space, p.name name] ++ [.space, p.keyword "is", .space])
      0 := hhead.append (.levels (by simp +decide))
  have hsemicolon : Level (.text ";") := Doc.level_text (by decide)
  match definition with
  | none => exact (hhead.append hsemicolon).concat
  | some (.enum literals) =>
      have hliterals : (parens (literals.map p.leaf)).Solid := by
        refine solid_parens fun d hd => ?_
        obtain ⟨l, hl, rfl⟩ := List.mem_map.mp hd
        exact p.solid_leaf (h _ rfl l hl) ((hfull _ rfl).2 l hl)
      exact (his.append (.cons hliterals.level hsemicolon)).concat
  | some (.range r units) =>
      obtain ⟨hr, hunits⟩ := h _ rfl
      obtain ⟨hr', hunits'⟩ := hfull _ rfl
      have hrange := (p.spaced_rangeType hr hr' hunits hunits' hcs).mono (Nat.zero_le 2)
        (Nat.le_refl 0)
      exact ((his.append hrange).append hsemicolon).concat
  | some (.array indexes element) =>
      obtain ⟨hindexes, helement⟩ := h _ rfl
      obtain ⟨hindexes', helement'⟩ := hfull _ rfl
      have hlist := (p.solid_exprList hindexes hindexes').level
      have hsubtype := (p.solid_subtype helement helement').level
      exact (his.append (.levels (by simp +decide [hlist, hsubtype]))).concat
  | some (.record fields endLabel tail) =>
      obtain ⟨hfields, hend⟩ := h _ rfl
      obtain ⟨hfieldComments, htail⟩ := Comment.allInked_add.mp hcs
      have hrecord := p.solid_recordType hname hend hfields (hfull _ rfl) hfieldComments htail
      exact (his.append hrecord.level).concat
  | some (.access target) =>
      have htarget := (p.solid_subtype (h _ rfl) (hfull _ rfl)).level
      exact (his.append (.levels (by simp +decide [htarget]))).concat

theorem solid_subprogramSpec {s : SubprogramSpec} (h : s.InCode) (hfull : s.Complete)
    (hcs : AllInked s.comments) : (p.subprogramSpec s).Solid := by
  obtain ⟨hparams, htail⟩ := Comment.allInked_add.mp hcs
  have hkind := p.solid_keyword h.kind hfull.kind
  have hfront : (Doc.words [p.keyword s.purity, p.keyword s.kind, p.name s.name]).Solid :=
    Doc.solid_words (by simpa using ⟨p.firm_keyword h.purity, hkind.firm, p.firm_name h.name⟩)
      ⟨_, by simp, hkind⟩
  have hresult := p.still_clause "return" (by decide)
    fun x hx => p.solid_expr x (h.result x hx) (hfull.result x hx)
  have hlist : ∀ d ∈ if s.params.isEmpty && s.tail.isEmpty then []
      else [Doc.wrap "(" (withTail (p.interfaceTable s.params) s.tail) ")"], d.Level := by
    split
    · simp
    · have hwrap : (Doc.wrap "(" (withTail (p.interfaceTable s.params) s.tail) ")").Solid :=
        Doc.solid_wrap (spaced_withTail (p.spaced_interfaceTable h.params hfull.params hparams)
          htail) (by decide) (by decide)
      simpa using hwrap.level
  exact Doc.solid_concat hfront
    (List.forall_mem_append.mpr ⟨hlist, fun d hd => (hresult d hd).level⟩)

theorem solid_component {name endLabel : Bytes} (hname : name.InCode) (hend : endLabel.InCode)
    {generics ports : Option InterfaceList} {tail : List Comment}
    (hblock : (p.interfaceBlock generics ports).Solid) (htail : AllInked (Comment.texts tail)) :
    (p.component name generics ports endLabel tail).Solid := by
  have hhead : Spaced 2 [p.keyword "component", .space, p.name name, .space, p.keyword "is"] 0 :=
    .solids (p.solid_word (by decide)) (by simp +decide [hname])
  have hbody := spaced_closed (hblock.comments htail).nest
    (p.solid_namedEnd "component" (Bytes.inCode_of_isPlain (by decide)) hend hname)
  exact (hhead.append hbody).concat

/-! ## Declarative parts -/

/-- Declarations, `begin`, statements and the end. -/
theorem spaced_sections {decls stmts : Block} {close : Doc} (hdecls : decls.Solid)
    (hstmts : stmts.Solid) (hclose : close.Solid) :
    Spaced 0 [decls.nest, .hardLine, p.keyword "begin", stmts.nest, .hardLine, close] 0 := by
  have hbegin : (p.keyword "begin").Solid := p.solid_word (by decide)
  exact (spaced_closed hdecls.nest hbegin).append (spaced_closed hstmts.nest hclose)

end Printer

/-- The row shows something on each line. -/
inductive Printer.DeclRow.Solid : Printer.DeclRow → Prop where
  | object {t : RowTrivia} {cells : List Doc} (ht : AllInked t.comments)
      (hcells : Spaced 2 cells 0) : Solid (.object t cells)
  | single {t : RowTrivia} {body : Doc} (ht : AllInked t.comments) (hbody : body.Solid) :
      Solid (.single t body)

namespace Printer

variable (p : Printer)

theorem DeclRow.Solid.spaced_parts {row : DeclRow} (h : row.Solid) :
    Spaced 1 (objectRow false row).parts 0 := by
  cases h with
  | object ht hcells =>
      obtain ⟨habove, hbehind⟩ := Comment.allInked_add.mp ht
      exact TableRow.spaced_parts habove false hcells (level_semicolon hbehind)
  | single _ hbody => exact (Spaced.cons hbody .empty).mono (by decide) (Nat.le_refl 0)

theorem solid_addRun {run : List DeclRow} {b : Block} (hb : b.Solid)
    (hrun : ∀ row ∈ run, row.Solid) : (p.addRun b run).Solid := by
  cases run with
  | nil => exact hb
  | cons row rest =>
      rw [List.forall_mem_cons] at hrun
      cases hrun.1 with
      | single ht hbody => exact hb.row ht hbody
      | @object t cells ht hcells =>
          obtain ⟨habove, hbehind⟩ := Comment.allInked_add.mp ht
          have hfirst : Spaced 2 (objectRow true (.object t cells)).parts 0 :=
            hcells.append (level_semicolon hbehind)
          have hothers : ∀ r ∈ rest.map (objectRow false), Spaced 1 r.parts 0 := by
            rintro r hr
            obtain ⟨row', hrow', rfl⟩ := List.mem_map.mp hr
            exact (hrun.2 row' hrow').spaced_parts
          exact (hb.leading habove).add (Spaced.columns hfirst hothers (.hardLine (Nat.zero_le 1))
            true p.objectPad)

theorem solid_addRows {rows : List DeclRow} {b : Block} (hb : b.Solid)
    (hrows : ∀ row ∈ rows, row.Solid) : (p.addRows b rows).Solid := by
  refine hb.foldl fun run hrun b hb => p.solid_addRun hb fun row hrow => hrows row ?_
  rw [← Columns.flatten_runs DeclRow.starts rows]
  exact List.mem_flatten.mpr ⟨run, hrun, hrow⟩

mutual

theorem solid_declRow (d : Decl) (h : d.InCode) (hfull : d.Complete) (hcs : AllInked d.comments) :
    (p.declRow d).Solid := by
  match d, h, hfull, hcs with
  | .object t _ word ns s x, ⟨hword, hns, hs, hx⟩, ⟨hns', hs', hx'⟩, hcs =>
      have hnames := p.solid_names hns hns'
      have hsubtype := (p.solid_subtype hs hs').level
      have hdefault := p.level_initializer hx hx'
      have hrest : Spaced 2 [p.names ns, .text ":", p.subtype s, p.initializer x] 0 :=
        .solids hnames (by simp +decide [hsubtype, hdefault])
      exact .object hcs (.cons ((p.firm_keyword hword).still 2 (Nat.le_refl 2)) hrest)
  | .type t name definition, ⟨hname, hdefinition⟩, ⟨_, hdefinition'⟩, hcs =>
      obtain ⟨ht, htype⟩ := Comment.allInked_add.mp hcs
      exact .single ht (p.solid_typeDecl hname hdefinition hdefinition' htype)
  | .subtype t name s, ⟨hname, hs⟩, ⟨_, hs'⟩, hcs =>
      have hword : (p.keyword "subtype").Solid := p.solid_word (by decide)
      have his : (p.keyword "is").Solid := p.solid_word (by decide)
      have hsubtype := p.solid_subtype hs hs'
      have hwords : (Doc.words [p.keyword "subtype", p.name name, p.keyword "is",
          p.subtype s]).Solid := Doc.solid_words
        (by simpa using ⟨hword.firm, p.firm_name hname, his.firm, hsubtype.firm⟩)
        ⟨_, List.mem_cons_self, hword⟩
      exact .single hcs (by simp +decide [hwords])
  | .alias t name s target, ⟨hname, hs, htarget⟩, ⟨_, hs', htarget'⟩, hcs =>
      have hfront : Spaced 2 [p.keyword "alias", .space, p.name name] 0 :=
        .solids (p.solid_word (by decide)) (by simp [hname])
      have hindication : ∀ d ∈ match s with
          | some s => [Doc.text " : ", p.subtype s]
          | none => [], d.Level := by
        cases s with
        | none => simp
        | some s =>
            have hsubtype := (p.solid_subtype (hs s rfl) (hs' s rfl)).level
            simp +decide [hsubtype]
      have hexpr := p.level_of_complete htarget htarget'
      exact .single hcs ((hfront.append (.levels hindication)).append
        (.levels (by simp +decide [hexpr]))).concat
  | .component t name generics ports endLabel tail, ⟨hname, hgenerics, hports, hend⟩,
      ⟨_, hgenerics', hports'⟩, hcs =>
      obtain ⟨⟨⟨ht, hgenericComments⟩, hportComments⟩, htail⟩ :
          ((AllInked t.comments ∧ AllInked _) ∧ AllInked _) ∧ AllInked _ := by
        simpa only [Decl.comments, Comment.allInked_add] using hcs
      have hblock := p.solid_interfaceBlock hgenerics hports hgenerics' hports' hgenericComments
        hportComments
      exact .single ht (p.solid_component hname hend hblock htail)
  | .attribute t name mark, ⟨hname, hmark⟩, ⟨_, hmark'⟩, hcs =>
      have hword : (p.keyword "attribute").Solid := p.solid_word (by decide)
      have hcolon : Solid (.text ":") := Doc.solid_text (by decide)
      have hexpr := p.solid_expr mark hmark hmark'
      have hwords : (Doc.words [p.keyword "attribute", p.name name, .text ":",
          p.expr mark]).Solid := Doc.solid_words
        (by simpa using ⟨hword.firm, p.firm_name hname, hcolon.firm, hexpr.firm⟩)
        ⟨_, List.mem_cons_self, hword⟩
      exact .single hcs (by simp +decide [hwords])
  | .attributeSpec t name entities entityClass x, ⟨hname, hentities, hclass, hx⟩,
      ⟨_, hentities', hx'⟩, hcs =>
      have hword : (p.keyword "attribute").Solid := p.solid_word (by decide)
      have hof : (p.keyword "of").Solid := p.solid_word (by decide)
      have his : (p.keyword "is").Solid := p.solid_word (by decide)
      have hcolon : Solid (.text ":") := Doc.solid_text (by decide)
      have hlist := p.solid_exprList hentities hentities'
      have hvalue := p.solid_value hx hx'
      have hwords : (Doc.words [p.keyword "attribute", p.name name, p.keyword "of",
          p.exprList entities, .text ":", p.keyword entityClass, p.keyword "is",
          p.value x]).Solid := Doc.solid_words
        (by simpa using ⟨hword.firm, p.firm_name hname, hof.firm, hlist.firm, hcolon.firm,
          p.firm_keyword hclass, his.firm, hvalue.firm⟩)
        ⟨_, List.mem_cons_self, hword⟩
      exact .single hcs (by simp +decide [hwords])
  | .subprogram t spec, h, hfull, hcs =>
      obtain ⟨ht, hspec⟩ := Comment.allInked_add.mp hcs
      have hbody := p.solid_subprogramSpec h hfull hspec
      exact .single ht (by simp +decide [hbody])
  | .subprogramBody t spec decls declTail stmts endLabel tail, ⟨hspec, hdecls, hstmts, hend⟩,
      ⟨hspec', hdecls', hstmts'⟩, hcs =>
      simp only [Decl.comments, Comment.allInked_add] at hcs
      obtain ⟨⟨⟨⟨⟨ht, hspecComments⟩, hdeclComments⟩, hdeclTail⟩, hstmtComments⟩, htail⟩ := hcs
      have hupper := (p.solid_addRows Block.solid_empty
        (solid_declRows decls hdecls hdecls' hdeclComments)).comments hdeclTail
      have hlower := (p.solid_seqBlock stmts (SeqStmt.allInCode_iff.mpr hstmts)
        (SeqStmt.allComplete_iff.mpr hstmts') hstmtComments Block.solid_empty).comments htail
      have hclose := p.solid_namedEnd _ hspec.kind hend hspec.name
      have hfront : Spaced 2 [p.subprogramSpec spec, .space, p.keyword "is"] 0 :=
        .solids (p.solid_subprogramSpec hspec hspec' hspecComments) (by simp +decide)
      exact .single ht (hfront.append (p.spaced_sections hupper hlower hclose)).concat
  | .use clause, h, hfull, hcs => exact .single hcs (p.solid_useClause h hfull)
  | .raw t tokens, h, _, hcs => exact .single hcs (p.solid_raw h.1 h.2)

theorem solid_declRows (ds : List Decl) (h : Decl.AllInCode ds) (hfull : Decl.AllComplete ds)
    (hcs : AllInked (Decl.allComments ds)) : ∀ row ∈ p.declRows ds, row.Solid := by
  match ds, h, hfull, hcs with
  | [], _, _, _ => simp [declRows]
  | d :: rest, ⟨hd, hrest⟩, ⟨hd', hrest'⟩, hcs =>
      obtain ⟨hcomments, hothers⟩ := Comment.allInked_add.mp hcs
      rw [declRows, List.forall_mem_cons]
      exact ⟨solid_declRow d hd hd' hcomments, solid_declRows rest hrest hrest' hothers⟩

end

theorem solid_declBlock {decls : List Decl} (h : ∀ d ∈ decls, d.InCode)
    (hfull : ∀ d ∈ decls, d.Complete) (hcs : AllInked (Decl.allComments decls)) {b : Block}
    (hb : b.Solid) : (p.declBlock b decls).Solid :=
  p.solid_addRows hb (p.solid_declRows decls (Decl.allInCode_iff.mpr h)
    (Decl.allComplete_iff.mpr hfull) hcs)

end Printer

end VhdlStyle
