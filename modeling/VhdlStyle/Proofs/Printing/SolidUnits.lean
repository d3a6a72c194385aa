import VhdlStyle.Proofs.Printing.SolidTrees

/-! # Units and files show something on each line

Concurrent statements come first, with what nests inside generate statements. A unit is a solid
document, and so is a file that is not empty. -/

namespace VhdlStyle

open Comment (AllInked)
open Doc (Spaced Solid Level)

namespace Printer

variable (p : Printer)

/-! ## Concurrent statements -/

theorem solid_selectedAssign {selector target : Expr} (hselector : selector.InCode)
    (hselector' : selector.Complete) (htarget : target.InCode) (htarget' : target.Complete)
    {arms : List SelectedWaveform} (harms : ∀ a ∈ arms, a.InCode)
    (harms' : AtLeastOne SelectedWaveform.Complete arms) :
    (p.selectedAssign selector target arms).Solid := by
  have hjoin : (Doc.join (.concat [.text ",", .line]) (arms.map fun a => .concat
      [p.exprList a.waveform, .space, p.keyword "when", .space, p.choices a.choices])).Solid := by
    refine Doc.solid_joinAll spaced_comma ⟨by simpa using harms'.1, fun d hd => ?_⟩
    obtain ⟨a, ha, rfl⟩ := List.mem_map.mp hd
    have hfull := harms'.2 a ha
    have hwaveform := p.solid_exprList (harms a ha).waveform hfull.waveform
    have hchoices := (p.solid_choices (harms a ha).choices hfull.choices).level
    exact Doc.solid_concat hwaveform (by simp +decide [hchoices])
  have hselectorLevel := p.level_of_complete hselector hselector'
  have htargetLevel := p.level_of_complete htarget htarget'
  have hfront : Spaced 2 [p.keyword "with", .space, p.expr selector, .space, p.keyword "select",
      .space, p.expr target, .text " <="] 0 :=
    .solids (p.solid_word (by decide)) (by simp +decide [hselectorLevel, htargetLevel])
  have hlines : Spaced 0 [.line, Doc.join (.concat [.text ",", .line]) _] 0 :=
    .next (fun _ => .line) hjoin (by simp)
  exact (hfront.append (.cons (hlines.concat.indent 1) (Doc.level_text (by decide)))).concat.group

theorem solid_process {label : Bytes} (hlabel : label.InCode) {b : ProcessBody} (h : b.InCode)
    (hfull : b.Complete) (hcs : AllInked b.comments) : (p.process label b).Solid := by
  simp only [ProcessBody.comments, Comment.allInked_add] at hcs
  obtain ⟨⟨⟨hdeclComments, hdeclTail⟩, hstmtComments⟩, htail⟩ := hcs
  have hupper := (p.solid_declBlock h.decls hfull.decls hdeclComments
    Block.solid_empty).comments hdeclTail
  have hlower := (p.solid_seqBlock b.stmts (SeqStmt.allInCode_iff.mpr h.stmts)
    (SeqStmt.allComplete_iff.mpr hfull.stmts) hstmtComments Block.solid_empty).comments htail
  have hword : (if b.postponed then "postponed process"
      else "process" : Bytes).isPlain = true := by
    cases b.postponed <;> decide
  have hclose := p.solid_stmtEnd [p.keyword (if b.postponed then "postponed process"
    else "process")] (by simpa using p.level_word hword) h.endLabel hlabel
  have hprocess : Spaced 2 ((if b.postponed then [p.keyword "postponed", .space] else []) ++
      [p.keyword "process"]) 0 := by
    split
    · exact .solids (p.solid_word (by decide)) (by simp +decide)
    · exact p.solid_word (by decide)
  have hsensitivity : ∀ d ∈ if b.sensitivity.isEmpty then []
      else [.space, parens (p.exprs b.sensitivity)], d.Level := by
    have hparens := solid_parens (p.solid_mem_exprs h.sensitivity hfull.sensitivity)
    split
    · simp
    · simp [hparens.level]
  have his : ∀ d ∈ if b.hasIs then [.space, p.keyword "is"] else [], d.Level := by
    split <;> simp +decide
  have hfront := (hprocess.append (.levels hsensitivity)).append (.levels his)
  exact (hfront.append (p.spaced_sections hupper hlower hclose)).concat

theorem spaced_mapClause (words : Bytes) (hwords : words.isPlain = true) {o : Option MapList}
    (h : ∀ l ∈ o, l.InCode) (hfull : ∀ l ∈ o, l.Complete)
    (hcs : AllInked (anyComments MapList.comments o)) : Spaced 0 (p.mapClause words o) 0 := by
  cases o with
  | none => exact .nil
  | some l => exact .next (fun _ => .line) (p.solid_mapList words hwords (h l rfl) (hfull l rfl)
      (Comment.allInked_any.mp hcs l rfl)) (by simp)

theorem solid_instantiated {i : Instantiation} (h : i.InCode) (hfull : i.Complete) :
    Spaced 2 (p.instantiated i) 0 := by
  have hunit := p.solid_expr i.unit h.unit hfull.unit
  have hkind : ∀ d ∈ if i.unitKind.isEmpty then [] else [p.keyword i.unitKind, .space],
      d.Still := by
    have hword := (p.firm_keyword h.unitKind).still
    split
    · simp
    · simp [hword, Doc.still_space]
  have harch : ∀ d ∈ if i.arch.isEmpty then [] else [.text "(", p.name i.arch, .text ")"],
      d.Level := by
    split
    · simp
    · simp +decide [h.arch]
  exact ((Spaced.stills (Nat.le_refl 2) hkind).append hunit).append (.levels harch)

theorem solid_instantiation {i : Instantiation} (h : i.InCode) (hfull : i.Complete)
    (hcs : AllInked i.comments) : (p.instantiation i).Solid := by
  obtain ⟨hgenericComments, hportComments⟩ := Comment.allInked_add.mp hcs
  have hgeneric := p.spaced_mapClause "generic map" (by decide) h.genericMap hfull.genericMap
    hgenericComments
  have hport := p.spaced_mapClause "port map" (by decide) h.portMap hfull.portMap hportComments
  have hmaps := (hgeneric.append hport).concat.indent 1
  have hgroup := (Spaced.cons (p.solid_instantiated h hfull).concat hmaps).concat.group
  exact Doc.solid_concat hgroup (by simp +decide)

mutual

theorem solid_concStmt (s : ConcStmt) (h : s.InCode) (hfull : s.Complete)
    (hcs : AllInked s.inside) : (p.concStmt s).Solid := by
  match s, h, hfull, hcs with
  | .assign h target arms, ⟨hh, htarget, harms⟩, ⟨htarget', _, harms'⟩, _ =>
      exact p.solid_labeled hh (p.solid_signalAssign htarget htarget' harms harms')
  | .selectedAssign h selector target arms, ⟨hh, hselector, htarget, harms⟩,
      ⟨hselector', htarget', harms'⟩, _ =>
      exact p.solid_labeled hh
        (p.solid_selectedAssign hselector hselector' htarget htarget' harms harms')
  | .process h body, ⟨hh, hbody⟩, hbody', hcs =>
      exact p.solid_labeled hh (p.solid_process hh hbody hbody' hcs)
  | .instantiation h inst, ⟨hh, hinst⟩, ⟨_, hinst'⟩, hcs =>
      exact p.solid_labeled hh (p.solid_instantiation hinst hinst' hcs)
  | .forGenerate h param range body endLabel, ⟨hh, hparam, hrange, hbody, hend⟩,
      ⟨_, _, hrange', hbody'⟩, hcs =>
      have hclose := p.solid_stmtEnd [p.keyword "generate"] (by simp +decide) hend hh
      have hvalue := p.level_value hrange hrange'
      have hfront : Spaced 2 [p.keyword "for", .space, p.name param, .space, p.keyword "in", .space,
          p.value range, .space, p.keyword "generate"] 0 :=
        .solids (p.solid_word (by decide)) (by simp +decide [hparam, hvalue])
      have hlines := spaced_closed (level_generateBody body hbody hbody' hcs) hclose
      exact p.solid_labeled hh (hfront.append hlines).concat
  | .ifGenerate h branches endLabel, ⟨hh, hbranches, hend⟩, ⟨_, hguarded, hbranches'⟩, hcs =>
      have hclose := p.solid_stmtEnd [p.keyword "generate"] (by simp +decide) hend hh
      have harms := spaced_generateBranches true branches hbranches hbranches' hcs
        fun _ => hguarded.1
      exact p.solid_labeled hh (harms.append (.next (fun _ => .hardLine) hclose (by simp))).concat
  | .assertStmt h a, ⟨hh, ha⟩, ha', _ => exact p.solid_labeled hh (p.solid_assertion ha ha')
  | .call h callee, ⟨hh, hcallee⟩, hcallee', _ =>
      have hvalue := p.solid_value hcallee hcallee'
      rw [concStmt]
      exact p.solid_labeled hh (by simp +decide [hvalue])

theorem solid_concBlock (ss : List ConcStmt) (h : ConcStmt.AllInCode ss)
    (hfull : ConcStmt.AllComplete ss) (hcs : AllInked (ConcStmt.allComments ss)) {b : Block}
    (hb : b.Solid) : (p.concBlock b ss).Solid := by
  match ss, h, hfull, hcs with
  | [], _, _, _ => exact hb
  | s :: rest, ⟨hs, hrest⟩, ⟨hs', hrest'⟩, hcs =>
      rw [ConcStmt.allComments, ConcStmt.comments_eq, Comment.allInked_add,
        Comment.allInked_add] at hcs
      obtain ⟨⟨htrivia, hinside⟩, hcomments⟩ := hcs
      exact solid_concBlock rest hrest hrest' hcomments
        (hb.row htrivia (solid_concStmt s hs hs' hinside))

theorem level_generateBody (b : GenerateBody) (h : b.InCode) (hfull : b.Complete)
    (hcs : AllInked b.comments) : (p.generateBody b).Level := by
  match b, h, hfull, hcs with
  | .mk decls hasBegin stmts tail, ⟨hdecls, hstmts, _⟩, ⟨_, hdecls', hstmts'⟩, hcs =>
      simp only [GenerateBody.comments, Comment.allInked_add] at hcs
      obtain ⟨⟨hdeclComments, hstmtComments⟩, htail⟩ := hcs
      have hlower := (solid_concBlock stmts hstmts hstmts' hstmtComments
        Block.solid_empty).comments htail
      have hupper := p.solid_declBlock hdecls hdecls' hdeclComments Block.solid_empty
      have hfront : Spaced 0 (if hasBegin then [(p.declBlock {} decls).nest, .hardLine,
          p.keyword "begin"] else []) 0 := by
        split
        · exact spaced_closed hupper.nest (p.solid_word (by decide))
        · exact .nil
      rw [generateBody]
      exact (hfront.append hlower.nest).concat

theorem spaced_generateBranches (first : Bool) (bs : List GenerateBranch)
    (h : GenerateBranch.AllInCode bs) (hfull : GenerateBranch.AllComplete bs)
    (hcs : AllInked (GenerateBranch.allComments bs)) (hne : first = true → bs ≠ []) :
    Spaced (if first then 2 else 0) (p.generateBranches first bs) 0 := by
  match bs, h, hfull, hcs with
  | [], _, _, _ =>
      obtain rfl : first = false := Bool.eq_false_iff.mpr fun hfirst => hne hfirst rfl
      exact .nil
  | .mk cond body :: rest, ⟨⟨hcond, hbody⟩, hrest⟩, ⟨⟨hcond', hbody'⟩, hrest'⟩, hcs =>
      rw [GenerateBranch.allComments, GenerateBranch.comments, Comment.allInked_add] at hcs
      have hlines := level_generateBody body hbody hbody' hcs.1
      have hothers := spaced_generateBranches false rest hrest hrest' hcs.2 (by simp)
      have hspace : ∀ d ∈ if cond.isSome then [] else [Doc.space], d.Level := by
        split <;> simp
      have hword : Spaced 0 [p.keyword "generate", p.generateBody body] 0 :=
        .levels (by simp +decide [hlines])
      have hhead := (spaced_between first).append (p.spaced_branchHead first hcond hcond')
      rw [generateBranches]
      exact ((hhead.append (.levels hspace)).append hword).append hothers

end

/-! ## Units -/

theorem solid_contextItem {i : ContextItem} (h : i.InCode) (hfull : i.Complete) :
    (p.contextItem i).Solid := by
  match i, h, hfull with
  | .library t names, h, hfull =>
      have hnames := (p.solid_names h hfull).level
      rw [contextItem]
      simp +decide [hnames]
  | .use clause, h, hfull => exact p.solid_useClause h hfull

theorem solid_unitBody {u : DesignUnit} (h : u.InCode) (hfull : u.Complete)
    (hbodyComments : AllInked u.body.comments) (htail : AllInked (Comment.texts u.tail)) :
    (p.unitBody u).Solid := by
  obtain ⟨t, context, name, body, endLabel, tail⟩ := u
  obtain ⟨-, hname, hbody, hend⟩ := h
  obtain ⟨-, -, hbody'⟩ := hfull
  have hclose (words : Bytes) (hwords : words.isPlain = true) :
      (p.namedEnd words endLabel name).Solid :=
    p.solid_namedEnd words (Bytes.inCode_of_isPlain hwords) hend hname
  have hfront (word : Bytes) (hword : word.isPlain = true) :
      Spaced 2 [p.keyword word, .space, p.name name, .space, p.keyword "is"] 0 :=
    .solids (p.solid_word hword) (by simp +decide [hname])
  match body, hbody, hbody', hbodyComments with
  | .entity generics ports decls hasBegin stmts, ⟨hgenerics, hports, hdecls, hstmts, _⟩,
      ⟨hgenerics', hports', hdecls', hstmts'⟩, hcs =>
      simp only [UnitBody.comments, Comment.allInked_add] at hcs
      obtain ⟨⟨⟨hgenericComments, hportComments⟩, hdeclComments⟩, hstmtComments⟩ := hcs
      have hupper := p.solid_declBlock hdecls hdecls' hdeclComments (p.solid_interfaceBlock
        hgenerics hports hgenerics' hports' hgenericComments hportComments)
      cases hasBegin with
      | false =>
          have hlines := spaced_closed (hupper.comments htail).nest (hclose "entity" (by decide))
          exact ((hfront "entity" (by decide)).append hlines).concat
      | true =>
          have hlower := (p.solid_concBlock stmts (ConcStmt.allInCode_iff.mpr hstmts)
            (ConcStmt.allComplete_iff.mpr hstmts') hstmtComments Block.solid_empty).comments htail
          have hsections := p.spaced_sections hupper hlower (hclose "entity" (by decide))
          exact ((hfront "entity" (by decide)).append hsections).concat
  | .architecture entityName decls declTail stmts, ⟨hentity, hdecls, hstmts⟩,
      ⟨_, hdecls', hstmts'⟩, hcs =>
      simp only [UnitBody.comments, Comment.allInked_add] at hcs
      obtain ⟨⟨hdeclComments, hdeclTail⟩, hstmtComments⟩ := hcs
      have hupper := (p.solid_declBlock hdecls hdecls' hdeclComments
        Block.solid_empty).comments hdeclTail
      have hlower := (p.solid_concBlock stmts (ConcStmt.allInCode_iff.mpr hstmts)
        (ConcStmt.allComplete_iff.mpr hstmts') hstmtComments Block.solid_empty).comments htail
      have hsections := p.spaced_sections hupper hlower (hclose "architecture" (by decide))
      have hhead : Spaced 2 [p.keyword "architecture", .space, p.name name, .space, p.keyword "of",
          .space, p.name entityName, .space, p.keyword "is"] 0 :=
        .solids (p.solid_word (by decide)) (by simp +decide [hname, hentity])
      exact (hhead.append hsections).concat
  | .package generics decls, ⟨hgenerics, hdecls⟩, ⟨hgenerics', hdecls'⟩, hcs =>
      obtain ⟨hgenericComments, hdeclComments⟩ := Comment.allInked_add.mp hcs
      have hinterface : (p.interfaceBlock generics none).Solid := p.solid_interfaceBlock hgenerics
        (by simp) hgenerics' (by simp) hgenericComments Comment.allInked_zero
      have hblock := p.solid_declBlock hdecls hdecls' hdeclComments hinterface
      have hlines := spaced_closed (hblock.comments htail).nest (hclose "package" (by decide))
      exact ((hfront "package" (by decide)).append hlines).concat
  | .packageBody decls, hdecls, hdecls', hcs =>
      have hblock := p.solid_declBlock hdecls hdecls' hcs Block.solid_empty
      have hlines := spaced_closed (hblock.comments htail).nest (hclose "package body" (by decide))
      exact ((hfront "package body" (by decide)).append hlines).concat

/-- A unit starts with its comments, its context clause or its first word, and ends with its
last. -/
theorem solid_designUnit {u : DesignUnit} (h : u.InCode) (hfull : u.Complete)
    (hcs : AllInked u.comments) : (p.designUnit u).Solid := by
  simp only [DesignUnit.comments, Comment.allInked_add, Comment.allInked_all] at hcs
  obtain ⟨⟨⟨hcontextComments, htrivia⟩, hbodyComments⟩, htail⟩ := hcs
  have hcontext : Block.Solid (u.context.foldl (fun b item =>
      b.row item.trivia (p.contextItem item)) {}) :=
    Block.solid_empty.foldl fun item hitem _ hb => hb.row (hcontextComments item hitem)
      (p.solid_contextItem (h.context item hitem) (hfull.context item hitem))
  exact (hcontext.row htrivia (p.solid_unitBody h hfull hbodyComments htail)).doc
    (List.cons_ne_nil _ _)

/-- The block of a file. -/
def fileBlock (f : DesignFile) : Block :=
  Block.comments (f.units.foldl (fun b u => b.blank.add (p.designUnit u)) {}) f.trailing

theorem solid_fileBlock {f : DesignFile} (h : f.InCode) (hfull : f.Complete)
    (hcs : AllInked f.comments) : (p.fileBlock f).Solid := by
  simp only [DesignFile.comments, Comment.allInked_add, Comment.allInked_all] at hcs
  exact (Block.solid_empty.foldl fun u hu _ hb =>
    hb.blank.add (p.solid_designUnit (h u hu) (hfull u hu) (hcs.1 u hu))).comments hcs.2

end Printer

end VhdlStyle
