import VhdlStyle.Proofs.Printing.Declarations

/-! # Units and files show their comments

Concurrent statements come first, with what nests inside generate statements. A file is the block of
its units; whatever comments a file is to show end up in its document. -/

namespace VhdlStyle

/-! ## Concurrent statements -/

/-- The comments inside a statement. -/
def ConcStmt.inside : ConcStmt → Multiset Bytes
  | .process _ body => body.comments
  | .instantiation _ inst => inst.comments
  | .forGenerate _ _ _ body _ => body.comments
  | .ifGenerate _ branches _ => GenerateBranch.allComments branches
  | _ => 0

theorem ConcStmt.comments_eq (s : ConcStmt) : s.comments = s.head.trivia.comments + s.inside := by
  cases s <;> simp [comments, inside, head, Head.comments]

namespace Printer

variable (p : Printer)

theorem quiet_selectedAssign {selector target : Expr} (hselector : selector.InCode)
    (htarget : target.InCode) {arms : List SelectedWaveform} (harms : ∀ a ∈ arms, a.InCode) :
    (p.selectedAssign selector target arms).Quiet := by
  have hjoin : (Doc.join (.concat [.text ",", .line]) (arms.map fun a => .concat
      [p.exprList a.waveform, .space, p.keyword "when", .space, p.choices a.choices])).Quiet := by
    refine Doc.quiet_join (by simp +decide) fun d hd => ?_
    obtain ⟨a, ha, rfl⟩ := List.mem_map.mp hd
    have hwaveform := p.quiet_exprList (harms a ha).waveform
    have hchoices := p.quiet_choices (harms a ha).choices
    simp +decide [hwaveform, hchoices]
  simp +decide [selectedAssign, hselector, htarget, hjoin]

theorem shows_process {label : Bytes} (hlabel : label.InCode) {b : ProcessBody} (h : b.InCode) :
    Doc.Shows false [p.process label b] false b.comments := by
  have hupper := (p.shows_declBlock h.decls Block.shows_empty).comments b.declTail
  have hlower := (p.shows_seqBlock b.stmts (SeqStmt.allInCode_iff.mpr h.stmts)
    Block.shows_empty).comments b.tail
  have hword : (if b.postponed then "postponed process"
      else "process" : Bytes).isPlain = true := by
    cases b.postponed <;> decide
  have hclose := p.quiet_stmtEnd [p.keyword (if b.postponed then "postponed process"
    else "process")] (by simpa using p.quiet_word hword) h.endLabel hlabel
  have hsections := (p.shows_sections hupper hlower).append
    (Doc.Shows.code hclose).after_hardLine
  have hpostponed : ∀ d ∈ if b.postponed then [p.keyword "postponed", .space] else [], d.Quiet := by
    split <;> simp +decide
  have hparens := quiet_parens (p.quiet_mem_exprs h.sensitivity)
  have hsensitivity : ∀ d ∈ if b.sensitivity.isEmpty then []
      else [.space, parens (p.exprs b.sensitivity)], d.Quiet := by
    split <;> simp [hparens]
  have his : ∀ d ∈ if b.hasIs then [.space, p.keyword "is"] else [], d.Quiet := by
    split <;> simp +decide
  have hfront : ∀ d ∈ (if b.postponed then [p.keyword "postponed", .space] else []) ++
      [p.keyword "process"] ++ (if b.sensitivity.isEmpty then []
        else [.space, parens (p.exprs b.sensitivity)]) ++
      (if b.hasIs then [.space, p.keyword "is"] else []), d.Quiet := by
    simp only [List.forall_mem_append]
    exact ⟨⟨⟨hpostponed, by simp +decide⟩, hsensitivity⟩, his⟩
  have hall := (hsections.after_codes hfront).concat
  rw [zero_add, zero_add, add_zero, ← add_assoc] at hall
  exact hall

/-- A map, on a line of its own where the instantiation is broken. -/
def mapClause (words : Bytes) : Option MapList → List Doc
  | none => []
  | some l => [.line, p.mapList words l]

theorem shows_mapClause (words : Bytes) (hwords : words.isPlain = true) {o : Option MapList}
    (h : ∀ l ∈ o, l.InCode) :
    Doc.Shows false (p.mapClause words o) false (anyComments MapList.comments o) ∧
      ∀ d ∈ p.mapClause words o, d.Breaks := by
  cases o with
  | none => exact ⟨.nil, by simp [mapClause]⟩
  | some l =>
      obtain ⟨hshows, hbreaks⟩ := p.shows_mapList hwords (h l rfl)
      have hline : Doc.Shows false [.line] false 0 := .line
      have hall := hline.cons hshows
      rw [zero_add] at hall
      exact ⟨hall, by simpa [mapClause] using ⟨.inl Doc.quiet_line, hbreaks⟩⟩

/-- The entity or component that is instantiated. -/
def instantiated (i : Instantiation) : List Doc :=
  (if i.unitKind.isEmpty then [] else [p.keyword i.unitKind, .space]) ++ [p.expr i.unit] ++
    if i.arch.isEmpty then [] else [.text "(", p.name i.arch, .text ")"]

theorem quiet_instantiated {i : Instantiation} (h : i.InCode) :
    ∀ d ∈ p.instantiated i, d.Quiet := by
  rw [instantiated]
  simp only [List.forall_mem_append]
  refine ⟨⟨?_, by simpa using p.quiet_expr i.unit h.unit⟩, ?_⟩
  · split <;> simp [h.unitKind]
  · split <;> simp +decide [h.arch]

theorem shows_instantiation {i : Instantiation} (h : i.InCode) :
    Doc.Shows false [p.instantiation i] false i.comments := by
  obtain ⟨hgeneric, hgenericBreaks⟩ := p.shows_mapClause "generic map" (by decide) h.genericMap
  obtain ⟨hport, hportBreaks⟩ := p.shows_mapClause "port map" (by decide) h.portMap
  have hunit : (Doc.concat (p.instantiated i)).Quiet :=
    Doc.quiet_concat.mpr (p.quiet_instantiated h)
  have hmaps := (hgeneric.append hport).concat.indent 1
  have hmapsBreaks := (Doc.Breaks.concat (List.forall_mem_append.mpr
    ⟨hgenericBreaks, hportBreaks⟩)).indent 1
  have hbreaks : ∀ d ∈ [Doc.concat (p.instantiated i), .indent 1 (.concat _)], d.Breaks :=
    List.forall_mem_cons.mpr ⟨.inl hunit, List.forall_mem_singleton.mpr hmapsBreaks⟩
  have hgroup := (hmaps.after_code hunit).concat.group (.concat hbreaks)
  have hsemicolon : Doc.Quiet (.text ";") := by simp +decide
  have hall := (hgroup.cons (.code hsemicolon)).concat
  rw [add_zero] at hall
  exact hall

mutual

theorem shows_concStmt (s : ConcStmt) (h : s.InCode) :
    Doc.Shows false [p.concStmt s] false s.inside := by
  match s, h with
  | .assign h target arms, ⟨hh, htarget, harms⟩ =>
      exact .code (p.quiet_labeled hh (p.quiet_signalAssign htarget harms))
  | .selectedAssign h selector target arms, ⟨hh, hselector, htarget, harms⟩ =>
      exact .code (p.quiet_labeled hh (p.quiet_selectedAssign hselector htarget harms))
  | .process h body, ⟨hh, hbody⟩ => exact p.shows_labeled hh (p.shows_process hh hbody)
  | .instantiation h inst, ⟨hh, hinst⟩ => exact p.shows_labeled hh (p.shows_instantiation hinst)
  | .forGenerate h param range body endLabel, ⟨hh, hparam, hrange, hbody, hend⟩ =>
      have hclose := p.quiet_stmtEnd [p.keyword "generate"] (by simp +decide) hend hh
      have hfront : ∀ d ∈ [p.keyword "for", .space, p.name param, .space, p.keyword "in", .space,
          p.value range, .space, p.keyword "generate"], d.Quiet := by
        have hquiet := p.quiet_value hrange
        simp +decide [hparam, hquiet]
      have hlines := shows_closed (shows_generateBody body hbody) hclose
      exact p.shows_labeled hh (hlines.after_codes hfront).concat
  | .ifGenerate h branches endLabel, ⟨hh, hbranches, hend⟩ =>
      have hclose := p.quiet_stmtEnd [p.keyword "generate"] (by simp +decide) hend hh
      have hbody := (shows_generateBranches true branches hbranches).append
        (Doc.Shows.code hclose).after_hardLine
      rw [add_zero] at hbody
      exact p.shows_labeled hh hbody.concat
  | .assertStmt h a, ⟨hh, ha⟩ => exact .code (p.quiet_labeled hh (p.quiet_assertion ha))
  | .call h callee, ⟨hh, hcallee⟩ =>
      have hvalue := p.quiet_value hcallee
      rw [concStmt]
      exact .code (p.quiet_labeled hh (by simp +decide [hvalue]))

theorem shows_concBlock (ss : List ConcStmt) (h : ConcStmt.AllInCode ss) {b : Block}
    {cs : Multiset Bytes} (hb : b.Shows cs) :
    (p.concBlock b ss).Shows (cs + ConcStmt.allComments ss) := by
  match ss, h with
  | [], _ =>
      rw [concBlock, ConcStmt.allComments, add_zero]
      exact hb
  | s :: rest, ⟨hs, hrest⟩ =>
      have hrow := hb.row s.head.trivia (shows_concStmt s hs)
      have hblock := shows_concBlock rest hrest hrow
      rw [ConcStmt.allComments, ConcStmt.comments_eq, ← add_assoc]
      exact hblock

theorem shows_generateBody (b : GenerateBody) (h : b.InCode) :
    Doc.Shows false [p.generateBody b] true b.comments := by
  match b, h with
  | .mk decls hasBegin stmts tail, ⟨hdecls, hstmts, hnone⟩ =>
      have hlower := (shows_concBlock stmts hstmts Block.shows_empty).comments tail
      rw [zero_add] at hlower
      rw [generateBody, GenerateBody.comments, add_assoc]
      cases hasBegin with
      | false =>
          rw [hnone rfl, Decl.allComments, zero_add]
          exact hlower.nest.concat
      | true =>
          have hupper := p.shows_declBlock hdecls Block.shows_empty
          rw [zero_add] at hupper
          exact (p.shows_sections hupper hlower).concat

theorem shows_generateBranches (first : Bool) (bs : List GenerateBranch)
    (h : GenerateBranch.AllInCode bs) :
    Doc.Shows (!first) (p.generateBranches first bs) true (GenerateBranch.allComments bs) := by
  match bs, h with
  | [], _ => exact Doc.Shows.nil.mono (Bool.le_refl _) (Bool.le_true _)
  | .mk cond body :: rest, ⟨⟨hcond, hbody⟩, hrest⟩ =>
      have hlines := (shows_generateBody body hbody).append
        (shows_generateBranches false rest hrest)
      have hword : (p.keyword "generate").Quiet := p.quiet_word (by decide)
      have hspace : ∀ d ∈ if cond.isSome then [] else [Doc.space], d.Quiet := by
        split <;> simp
      have hall := ((hlines.after_code hword).after_codes hspace).after_codes
        (p.quiet_branchHead first hcond)
      rw [generateBranches, GenerateBranch.allComments, GenerateBranch.comments]
      cases first with
      | true => simpa using hall
      | false => simpa using hall.after_hardLine

end

/-! ## Units -/

theorem quiet_contextItem {i : ContextItem} (h : i.InCode) : (p.contextItem i).Quiet := by
  match i, h with
  | .library t names, h =>
      have hnames := p.quiet_names h
      rw [contextItem]
      simp +decide [hnames]
  | .use clause, h => exact p.quiet_useClause h

theorem shows_unitBody {u : DesignUnit} (h : u.InCode) :
    Doc.Shows false [p.unitBody u] false (u.body.comments + Comment.texts u.tail) := by
  obtain ⟨t, context, name, body, endLabel, tail⟩ := u
  obtain ⟨-, hname, hbody, hend⟩ := h
  match body, hbody with
  | .entity generics ports decls hasBegin stmts, ⟨hgenerics, hports, hdecls, hstmts, hnone⟩ =>
      have hclose : (p.namedEnd "entity" endLabel name).Quiet :=
        p.quiet_namedEnd _ (Bytes.inCode_of_isPlain (by decide)) hend hname
      have hfront : ∀ d ∈ [p.keyword "entity", .space, p.name name, .space, p.keyword "is"],
          d.Quiet := by simp +decide [hname]
      have hupper := p.shows_declBlock hdecls (p.shows_interfaceBlock hgenerics hports)
      rw [UnitBody.comments]
      cases hasBegin with
      | false =>
          rw [hnone rfl, ConcStmt.allComments, add_zero]
          have hlines := shows_closed (hupper.comments tail).nest hclose
          exact (hlines.after_codes hfront).concat
      | true =>
          have hlower := (p.shows_concBlock stmts (ConcStmt.allInCode_iff.mpr hstmts)
            Block.shows_empty).comments tail
          have hsections := (p.shows_sections hupper hlower).append
            (Doc.Shows.code hclose).after_hardLine
          have hall := (hsections.after_codes hfront).concat
          rw [zero_add, add_zero, ← add_assoc] at hall
          exact hall
  | .architecture entityName decls declTail stmts, ⟨hentity, hdecls, hstmts⟩ =>
      have hupper := (p.shows_declBlock hdecls Block.shows_empty).comments declTail
      have hlower := (p.shows_concBlock stmts (ConcStmt.allInCode_iff.mpr hstmts)
        Block.shows_empty).comments tail
      have hclose : (p.namedEnd "architecture" endLabel name).Quiet :=
        p.quiet_namedEnd _ (Bytes.inCode_of_isPlain (by decide)) hend hname
      have hfront : ∀ d ∈ [p.keyword "architecture", .space, p.name name, .space, p.keyword "of",
          .space, p.name entityName, .space, p.keyword "is"], d.Quiet := by
        simp +decide [hname, hentity]
      have hsections := (p.shows_sections hupper hlower).append
        (Doc.Shows.code hclose).after_hardLine
      have hall := (hsections.after_codes hfront).concat
      rw [zero_add, zero_add, add_zero, ← add_assoc] at hall
      exact hall
  | .package generics decls, ⟨hgenerics, hdecls⟩ =>
      have hfront : ∀ d ∈ [p.keyword "package", .space, p.name name, .space, p.keyword "is"],
          d.Quiet := by simp +decide [hname]
      have hclose : (p.namedEnd "package" endLabel name).Quiet :=
        p.quiet_namedEnd _ (Bytes.inCode_of_isPlain (by decide)) hend hname
      have hports : ∀ l ∈ (none : Option InterfaceList), l.InCode := by simp
      have hclauses := p.shows_interfaceBlock hgenerics hports
      rw [anyComments, add_zero] at hclauses
      have hlines := shows_closed ((p.shows_declBlock hdecls hclauses).comments tail).nest hclose
      exact (hlines.after_codes hfront).concat
  | .packageBody decls, hdecls =>
      have hfront : ∀ d ∈ [p.keyword "package body", .space, p.name name, .space, p.keyword "is"],
          d.Quiet := by simp +decide [hname]
      have hclose : (p.namedEnd "package body" endLabel name).Quiet :=
        p.quiet_namedEnd _ (Bytes.inCode_of_isPlain (by decide)) hend hname
      have hblock := (p.shows_declBlock hdecls Block.shows_empty).comments tail
      rw [zero_add] at hblock
      exact ((shows_closed hblock.nest hclose).after_codes hfront).concat

theorem shows_context {items : List ContextItem} (h : ∀ i ∈ items, i.InCode) {b : Block}
    {cs : Multiset Bytes} (hb : b.Shows cs) :
    (items.foldl (fun b item => b.row item.trivia (p.contextItem item)) b).Shows
      (cs + allComments ContextItem.comments items) := by
  refine hb.foldl fun item hitem b cs hb => ?_
  have hrow := hb.row item.trivia (.code (p.quiet_contextItem (h item hitem)))
  rwa [add_zero] at hrow

/-- A unit stands below its context clause. -/
theorem shows_designUnit {u : DesignUnit} (h : u.InCode) :
    Doc.Shows false [p.designUnit u] true u.comments := by
  have hrow := (p.shows_context h.context Block.shows_empty).row u.trivia (p.shows_unitBody h)
  have hunit := hrow.doc
  rw [zero_add, ← add_assoc, ← add_assoc] at hunit
  exact hunit

theorem shows_units {units : List DesignUnit} (h : ∀ u ∈ units, u.InCode) {b : Block}
    {cs : Multiset Bytes} (hb : b.Shows cs) :
    (units.foldl (fun b u => b.blank.add (p.designUnit u)) b).Shows
      (cs + allComments DesignUnit.comments units) :=
  hb.foldl fun u hu _ _ hb => hb.blank.add (p.shows_designUnit (h u hu))

/-- The document of a file shows the comments of the file, and writes nothing behind them. -/
theorem shows_designFile {f : DesignFile} (h : f.InCode) :
    Doc.Shows false [p.designFile f] true f.comments := by
  have hfile := ((p.shows_units h Block.shows_empty).comments f.trailing).doc
  rw [zero_add] at hfile
  exact hfile

end Printer

end VhdlStyle
