import VhdlStyle.Proofs.Printing.Code
import VhdlStyle.Proofs.Printing.Spaced

/-! # Code in print shows something on each line

Where the tree has no gap, expressions, subtypes and all that stands on a line of its own without
further rows inside start and end on lines that show something. -/

namespace VhdlStyle.Printer

open Bytes (inked)
open Doc (Spaced Solid Still Level Firm)

variable (p : Printer)

/-! ## Words -/

section

variable {text : Bytes} (h : text.InCode)

include h

theorem solid_keyword (hne : text ≠ []) : (p.keyword text).Solid :=
  Doc.solid_text ((h p.casing.keywords).2 hne)

theorem solid_name (hne : text ≠ []) : (p.name text).Solid := by
  refine Doc.solid_text ?_
  rw [Casing.name]
  split
  · exact (h p.casing.constants).2 hne
  · exact (h p.casing.identifiers).2 hne

theorem firm_keyword : (p.keyword text).Firm := by
  by_cases hnil : text = []
  · exact .inl (by rw [hnil]; rfl)
  · exact (p.solid_keyword h hnil).firm

theorem firm_name : (p.name text).Firm := by
  by_cases hnil : text = []
  · refine .inl ?_
    rw [hnil, name, Casing.name]
    split <;> rfl
  · exact (p.solid_name h hnil).firm

@[simp] theorem level_keyword : (p.keyword text).Level := (p.firm_keyword h).level

@[simp] theorem level_name : (p.name text).Level := (p.firm_name h).level

end

theorem inked_word {text : Bytes} (h : text.isPlain = true) :
    inked false (p.casing.keyword text) = true :=
  (Bytes.inCode_of_isPlain h p.casing.keywords).2
    (Bytes.ne_nil_of_startsWord (Bytes.isPlain_iff.mp h).1)

/-- A reserved word of the printer. -/
@[simp] theorem solid_word {text : Bytes} (h : text.isPlain = true) : (p.keyword text).Solid :=
  Doc.solid_text (p.inked_word h)

@[simp] theorem level_word {text : Bytes} (h : text.isPlain = true) : (p.keyword text).Level :=
  (p.solid_word h).level

theorem still_word {text : Bytes} (h : text.isPlain = true) : (p.keyword text).Still :=
  (p.solid_word h).still

theorem solid_names {names : List Bytes} (h : ∀ n ∈ names, n.InCode) (hnames : Named names) :
    (p.names names).Solid := by
  refine Doc.solid_joinAll (.separator (by decide)) ⟨by simpa using hnames.1, fun d hd => ?_⟩
  obtain ⟨n, hn, rfl⟩ := List.mem_map.mp hd
  exact p.solid_name (h n hn) (hnames.2 n hn)

@[simp] theorem solid_leaf {l : Leaf} (h : l.InCode) (hl : l.Present) : (p.leaf l).Solid := by
  rw [leaf]
  split
  · exact p.solid_name h hl.text
  · split
    · exact p.solid_keyword h hl.text
    · exact Doc.solid_text (Bytes.InCode.inked_eq h hl.text)

theorem solid_operator {l : Leaf} (h : l.InCode) (hl : l.Present) : (p.operator l).Solid := by
  rw [operator]
  split
  · exact p.solid_keyword h hl.text
  · exact Doc.solid_text (Bytes.InCode.inked_eq h hl.text)

/-- Between the elements of a list lines may break. -/
theorem spaced_comma : Spaced 0 [.concat [.text ",", .line]] 2 :=
  (Spaced.cons (Doc.level_text (by decide)) (.line (Nat.zero_le 1))).concat.mono
    (Nat.le_refl 0) (by decide)

theorem solid_parens {parts : List Doc} (h : ∀ d ∈ parts, d.Solid) : (parens parts).Solid :=
  Doc.solid_wrap (Doc.still_join spaced_comma (fun d hd => (h d hd).firm) 1 (by decide))
    (by decide) (by decide)

/-! ## Expressions -/

mutual

theorem solid_expr (x : Expr) (h : x.InCode) (hx : x.Complete) : (p.expr x).Solid := by
  match x, h, hx with
  | .leaf l, h, hl => exact p.solid_leaf h hl
  | .unary op x, ⟨hop, hx⟩, ⟨hop', hx'⟩ =>
      have htext : inked false op.text = true := Bytes.InCode.inked_eq hop hop'.text
      have hsolid := solid_expr x hx hx'
      have hoperator := p.solid_operator hop hop'
      rw [expr]
      split <;> simp [htext, hsolid.level, hoperator]
  | .binary op x y, ⟨hop, hx, hy⟩, ⟨hop', hx', hy'⟩ =>
      have hsolidX := solid_expr x hx hx'
      have hsolidY := solid_expr y hy hy'
      have hoperator := p.solid_operator hop hop'
      have hfront : Spaced 2 [p.expr x, .space, p.operator op] 0 :=
        .solids hsolidX (by simp [hoperator.level])
      have hbehind : Spaced 0 [.space, p.expr y] 0 := .levels (by simp [hsolidY.level])
      rw [expr]
      split
      · exact (hfront.append (.next (fun _ => .line) hsolidY (by simp))).concat
      · exact (hfront.append hbehind).concat
  | .paren x, h, hx =>
      have hsolid := solid_expr x h hx
      rw [expr]
      simp +decide [hsolid.level]
  | .call f args, ⟨hf, hargs⟩, ⟨hf', hargs'⟩ =>
      have hsolid := solid_expr f hf hf'
      have hparens := solid_parens (solid_assocs args hargs hargs')
      rw [expr]
      simp [hsolid, hparens.level]
  | .selected x l, ⟨hx, hl⟩, ⟨hx', hl'⟩ =>
      have hsolid := solid_expr x hx hx'
      have hleaf := p.solid_leaf hl hl'
      rw [expr]
      simp +decide [hsolid, hleaf.level]
  | .attribute x l, ⟨hx, hl⟩, ⟨hx', hl'⟩ =>
      have hsolid := solid_expr x hx hx'
      have hleaf := p.solid_leaf hl hl'
      rw [expr]
      simp +decide [hsolid, hleaf.level]
  | .qualified mark x, ⟨hmark, hx⟩, ⟨hmark', hx'⟩ =>
      have hsolidMark := solid_expr mark hmark hmark'
      have hsolid := solid_expr x hx hx'
      rw [expr]
      simp +decide [hsolidMark, hsolid.level]
  | .aggregate elems, h, hx =>
      rw [expr]
      exact solid_parens (solid_assocs elems h hx)

theorem solid_exprs (xs : List Expr) (h : Expr.AllInCode xs) (hxs : Expr.AllComplete xs) :
    ∀ d ∈ p.exprs xs, d.Solid := by
  match xs, h, hxs with
  | [], _, _ => simp [exprs]
  | x :: rest, ⟨hx, hrest⟩, ⟨hx', hrest'⟩ =>
      rw [exprs, List.forall_mem_cons]
      exact ⟨solid_expr x hx hx', solid_exprs rest hrest hrest'⟩

theorem solid_assoc (a : Assoc) (h : a.InCode) (ha : a.Complete) : (p.assoc a).Solid := by
  obtain ⟨choices, actual⟩ := a
  have hsolid := solid_expr actual h.2 ha.2
  rw [assoc]
  split
  · exact hsolid
  · rename_i hne
    have hchoices : Doc.Solid (Doc.join (.text " | ") (p.exprs choices)) := by
      refine Doc.solid_joinAll (.separator (by decide)) ⟨?_, solid_exprs choices h.1 ha.1⟩
      cases choices with
      | nil => simp at hne
      | cons x rest => simp [exprs]
    simp +decide [hchoices, hsolid.level]

theorem solid_assocs (as : List Assoc) (h : Assoc.AllInCode as) (has : Assoc.AllComplete as) :
    ∀ d ∈ p.assocs as, d.Solid := by
  match as, h, has with
  | [], _, _ => simp [assocs]
  | a :: rest, ⟨ha, hrest⟩, ⟨ha', hrest'⟩ =>
      rw [assocs, List.forall_mem_cons]
      exact ⟨solid_assoc a ha ha', solid_assocs rest hrest hrest'⟩

end

section

variable {x : Expr} {xs : List Expr} {o : Option Expr}

@[simp] theorem solid_of_complete (h : x.InCode) (hx : x.Complete) : (p.expr x).Solid :=
  p.solid_expr x h hx

@[simp] theorem level_of_complete (h : x.InCode) (hx : x.Complete) : (p.expr x).Level :=
  (p.solid_expr x h hx).level

@[simp] theorem solid_value (h : x.InCode) (hx : x.Complete) : (p.value x).Solid := by
  have hexpr := p.solid_expr x h hx
  simp [value, hexpr]

@[simp] theorem level_value (h : x.InCode) (hx : x.Complete) : (p.value x).Level :=
  (p.solid_value h hx).level

theorem solid_mem_exprs (h : ∀ x ∈ xs, x.InCode) (hxs : ∀ x ∈ xs, x.Complete) :
    ∀ d ∈ p.exprs xs, d.Solid :=
  p.solid_exprs xs (Expr.allInCode_iff.mpr h) (Expr.allComplete_iff.mpr hxs)

theorem solid_joinExprs {sep : Bytes} (hsep : Bytes.lf ∉ sep) (h : ∀ x ∈ xs, x.InCode)
    (hxs : AtLeastOne Expr.Complete xs) : (Doc.join (.text sep) (p.exprs xs)).Solid := by
  refine Doc.solid_joinAll (.separator hsep) ⟨?_, p.solid_mem_exprs h hxs.2⟩
  cases xs with
  | nil => exact absurd rfl hxs.1
  | cons x rest => simp [exprs]

@[simp] theorem solid_choices (h : ∀ x ∈ xs, x.InCode) (hxs : AtLeastOne Expr.Complete xs) :
    (p.choices xs).Solid := p.solid_joinExprs (by decide) h hxs

@[simp] theorem solid_exprList (h : ∀ x ∈ xs, x.InCode) (hxs : AtLeastOne Expr.Complete xs) :
    (p.exprList xs).Solid := p.solid_joinExprs (by decide) h hxs

theorem still_clause (word : Bytes) {show_ : Expr → Doc} (hword : word.isPlain = true)
    (hshow : ∀ x ∈ o, (show_ x).Solid) : ∀ d ∈ p.clause word show_ o, d.Still := by
  cases o with
  | none => simp [clause]
  | some x =>
      have hx := (hshow x rfl).still
      simp [clause, Doc.still_space, p.still_word hword, hx]

end

/-! ## Subtypes and lists -/

/-- The constraint behind a type mark. -/
def constraintParts : Option Constraint → List Doc
  | some (.index ranges) => [.text "(", p.exprList ranges, .text ")"]
  | some (.range r) => [.space, p.keyword "range", .space, p.expr r]
  | none => []

theorem level_constraintParts {o : Option Constraint} (h : ∀ c ∈ o, c.InCode)
    (ho : ∀ c ∈ o, c.Complete) : ∀ d ∈ p.constraintParts o, d.Level := by
  rcases o with _ | ⟨ranges⟩ | ⟨r⟩
  · simp [constraintParts]
  · have hranges := p.solid_exprList (h _ rfl) (ho _ rfl)
    simp +decide [constraintParts, hranges.level]
  · have hr := p.solid_expr r (h _ rfl) (ho _ rfl)
    simp +decide [constraintParts, hr.level]

@[simp] theorem solid_subtype {s : SubtypeIndication} (h : s.InCode) (hs : s.Complete) :
    (p.subtype s).Solid := by
  obtain ⟨resolution, mark, constraint⟩ := s
  have hlast : Spaced 2 (p.expr mark :: p.constraintParts constraint) 0 :=
    .solids (p.solid_expr mark h.mark hs.mark)
      (p.level_constraintParts h.constraint hs.constraint)
  cases resolution with
  | none => exact hlast.concat
  | some x =>
      have hx := p.solid_expr x (h.resolution x rfl) (hs.resolution x rfl)
      have hfront : Spaced 2 [p.expr x, .space] 0 := .solids hx (by simp)
      exact (hfront.append (hlast.mono (Nat.zero_le 2) (Nat.le_refl 0))).concat

theorem level_initializer {o : Option Expr} (h : ∀ x ∈ o, x.InCode) (ho : ∀ x ∈ o, x.Complete) :
    (p.initializer o).Level := by
  cases o with
  | none => exact Doc.level_empty
  | some x =>
      have hx := p.solid_value (h x rfl) (ho x rfl)
      simp +decide [initializer, hx.level]

theorem spaced_interfaceCells {i : InterfaceItem} (h : i.InCode) (hi : i.Complete) :
    Spaced 2 (p.interfaceCells i) 0 := by
  have hnames := p.solid_names h.names hi.names
  have hfront : (Doc.words [p.keyword i.objectClass, p.names i.names]).Solid :=
    Doc.solid_words (by simpa using ⟨p.firm_keyword h.objectClass, hnames.firm⟩)
      ⟨_, by simp, hnames⟩
  have hindication := p.solid_subtype h.indication hi.indication
  have hdefault := p.level_initializer h.default hi.default
  refine .solids hfront ?_
  simp +decide [h.mode, hindication.level, hdefault]

theorem spaced_mapCells {m : MapItem} (h : m.InCode) (hm : m.Complete) :
    Spaced 2 (p.mapCells m) 0 := by
  obtain ⟨t, choices, actual⟩ := m
  rw [mapCells]
  split
  · exact p.solid_expr actual h.2 hm.2
  · rename_i hne
    have hchoices := p.solid_choices (Expr.allInCode_iff.mp h.1)
      ⟨by simpa [Assoc.choices] using hne, Expr.allComplete_iff.mp hm.1⟩
    have hvalue := p.solid_value h.2 hm.2
    refine .solids hchoices ?_
    simp +decide [Assoc.actual, hvalue.level]

/-! ## Statements on a line of their own -/

theorem solid_labeled {label : Bytes} (hlabel : label.InCode) {body : Doc} (hbody : body.Solid) :
    (p.labeled label body).Solid := by
  rw [labeled]
  split
  · exact hbody
  · rename_i hne
    have hname := p.solid_name hlabel (by simpa using hne)
    simp +decide [hname, hbody.level]

theorem solid_stmtEnd (words : List Doc) (hwords : ∀ d ∈ words, d.Level) {endLabel label : Bytes}
    (hend : endLabel.InCode) (hlabel : label.InCode) : (p.stmtEnd words endLabel label).Solid := by
  have hname := p.level_name (inCode_orElse hend hlabel)
  have hfront : Spaced 2 [p.keyword "end", .space] 0 := .solids (p.solid_word (by decide)) (by simp)
  have hshown : ∀ d ∈ if label.isEmpty then [] else [.space, p.name (endLabel.orElse label)],
      d.Level := by
    split
    · simp
    · simp [hname]
  have hall := (hfront.append (.levels hwords)).append (.levels hshown)
  exact (hall.append (Doc.level_text (by decide))).concat

theorem solid_condWaveform {w : CondWaveform} (h : w.InCode) (hw : w.Complete) :
    (p.condWaveform w).Solid := by
  have hclause := p.still_clause "when" (by decide)
    fun x hx => p.solid_expr x (h.cond x hx) (hw.cond x hx)
  exact Doc.solid_concat (p.solid_exprList h.waveform hw.waveform) fun d hd => (hclause d hd).level

theorem solid_signalAssign {x : Expr} (hx : x.InCode) (hx' : x.Complete) {arms : List CondWaveform}
    (harms : ∀ w ∈ arms, w.InCode) (harms' : ∀ w ∈ arms, w.Complete) :
    (p.signalAssign x arms).Solid := by
  have hsep : Spaced 0 [.concat [.line, p.keyword "else", .space]] 2 :=
    (Spaced.next (fun _ => .line) (p.solid_word (by decide)) (by simp)).concat.mono
      (Nat.le_refl 0) (Nat.zero_le 2)
  have hbody : (Doc.join (.concat [.line, p.keyword "else", .space])
      (arms.map p.condWaveform)).Still := by
    refine Doc.still_join hsep fun d hd => ?_
    obtain ⟨w, hw, rfl⟩ := List.mem_map.mp hd
    exact (p.solid_condWaveform (harms w hw) (harms' w hw)).firm
  have hexpr := p.solid_expr x hx hx'
  have hgroup : Solid (.concat [p.expr x, .text " <= ", Doc.join (.concat [.line, p.keyword "else",
      .space]) (arms.map p.condWaveform)]) := by simp +decide [hexpr, hbody.level]
  simp +decide [signalAssign, hgroup]

/-- A word and an expression, on a line of their own where the assertion is broken. -/
def assertPart (word : Bytes) : Option Expr → List Doc
  | none => []
  | some x => [.line, p.keyword word, .space, p.expr x]

theorem spaced_assertPart (word : Bytes) (hword : word.isPlain = true) {o : Option Expr}
    (h : ∀ x ∈ o, x.InCode) (ho : ∀ x ∈ o, x.Complete) : Spaced 0 (p.assertPart word o) 0 := by
  cases o with
  | none => exact .nil
  | some x =>
      have hx := p.level_of_complete (h x rfl) (ho x rfl)
      exact .next (fun _ => .line) (p.solid_word hword) (by simp [hx])

theorem solid_assertion {a : Assertion} (h : a.InCode) (ha : a.Complete) :
    (p.assertion a).Solid := by
  obtain ⟨postponed, cond, report, severity⟩ := a
  have hcond := p.level_of_complete h.cond ha.cond
  have hassert : Spaced 2 ((if postponed then [p.keyword "postponed", .space] else []) ++
      [p.keyword "assert", .space, p.expr cond]) 0 := by
    cases postponed with
    | false => exact .solids (p.solid_word (by decide)) (by simp [hcond])
    | true => exact .solids (p.solid_word (by decide)) (by simp +decide [hcond])
  have hreport := p.spaced_assertPart "report" (by decide) h.report ha.report
  have hseverity := p.spaced_assertPart "severity" (by decide) h.severity ha.severity
  have hbody : Solid (.group (.indent 1 (.concat _))) :=
    (((hassert.append hreport).append hseverity).concat.indent 1).group
  exact Doc.solid_concat hbody (by simp +decide)

theorem still_loopScheme {scheme : LoopScheme} (h : scheme.InCode) (hs : scheme.Complete) :
    ∀ d ∈ p.loopScheme scheme, d.Still := by
  have hspace := Doc.still_space
  match scheme, h, hs with
  | .forIn param range, ⟨hparam, hrange⟩, ⟨_, hrange'⟩ =>
      have hname := (p.firm_name hparam).still
      have hvalue := (p.solid_value hrange hrange').still
      have hfor : (p.keyword "for").Still := p.still_word (by decide)
      have hin : (p.keyword "in").Still := p.still_word (by decide)
      simp [loopScheme, hspace, hname, hvalue, hfor, hin]
  | .while_ cond, h, hs =>
      have hvalue := (p.solid_value h hs).still
      have hwhile : (p.keyword "while").Still := p.still_word (by decide)
      simp [loopScheme, hspace, hvalue, hwhile]
  | .forever, _, _ => simp [loopScheme]

theorem spaced_branchHead (first : Bool) {o : Option Expr} (h : ∀ x ∈ o, x.InCode)
    (ho : ∀ x ∈ o, x.Complete) : Spaced 2 (p.branchHead first o) 0 := by
  cases o with
  | none => exact p.solid_word (by decide)
  | some x =>
      have hx := p.level_value (h x rfl) (ho x rfl)
      cases first with
      | false => exact .solids (p.solid_word (by decide)) (by simp [hx])
      | true => exact .solids (p.solid_word (by decide)) (by simp [hx])

/-! ## Declarations on a line of their own -/

theorem solid_namedEnd (words : Bytes) {endLabel name : Bytes} (hwords : words.InCode)
    (hend : endLabel.InCode) (hname : name.InCode) : (p.namedEnd words endLabel name).Solid := by
  have hlabel := p.level_name (inCode_orElse hend hname)
  simp +decide [namedEnd, hwords, hlabel]

theorem solid_useClause {c : UseClause} (h : c.InCode) (hc : c.Complete) :
    (p.useClause c).Solid := by
  have hnames := (p.solid_exprList h hc).level
  simp +decide [useClause, hnames]

/-- Whatever a token is, its spelling in print is the one of some casing. -/
theorem rawToken_eq (t : RawToken) : ∃ style : CaseStyle, p.rawToken t = style.apply t.text := by
  rw [rawToken]
  split
  · exact ⟨p.casing.keywords, rfl⟩
  · split
    · rw [Casing.name]
      split
      · exact ⟨p.casing.constants, rfl⟩
      · exact ⟨p.casing.identifiers, rfl⟩
    · exact ⟨.preserve, (CaseStyle.apply_preserve _).symm⟩

theorem inked_rawAfter (previous : RawToken) {tokens : List RawToken}
    (h : ∀ t ∈ tokens, t.InCode) : inked true (p.rawAfter previous tokens) = true := by
  induction tokens generalizing previous with
  | nil => rfl
  | cons t rest ih =>
      rw [List.forall_mem_cons] at h
      obtain ⟨style, hstyle⟩ := p.rawToken_eq t
      rw [rawAfter, hstyle]
      refine Bytes.inked_append (Bytes.inked_append ?_ (Bytes.InCode.inked_behind h.1 style))
        (ih t h.2)
      split <;> rfl

theorem solid_raw {tokens : List RawToken} (h : ∀ t ∈ tokens, t.InCode)
    (hfirst : ∀ t ∈ tokens.head?, t.text.startsWord = true) : (p.raw tokens).Solid := by
  cases tokens with
  | nil => exact Doc.solid_text (by decide)
  | cons t rest =>
      rw [List.forall_mem_cons] at h
      have hne : t.text ≠ [] := Bytes.ne_nil_of_startsWord (hfirst t rfl)
      obtain ⟨style, hstyle⟩ := p.rawToken_eq t
      rw [raw, hstyle]
      refine Doc.solid_text (Bytes.inked_append (Bytes.inked_append ?_ (p.inked_rawAfter t h.2))
        (by decide))
      exact (h.1 style).2 hne

end VhdlStyle.Printer
