import VhdlStyle.Proofs.Printing.Printable
import VhdlStyle.Proofs.Printing.Rows
import VhdlStyle.Design.Unit.Printer

/-! # Code in print shows no comments

Expressions, subtypes and all that stands on a line of its own without further rows inside. -/

namespace VhdlStyle.Printer

variable (p : Printer)

/-! ## Words -/

@[simp] theorem quiet_keyword {text : Bytes} (h : text.InCode) : (p.keyword text).Quiet :=
  Doc.quiet_text.mpr (h.isCode_apply p.casing.keywords)

/-- A reserved word of the printer. -/
@[simp] theorem quiet_word {text : Bytes} (h : text.isPlain = true) : (p.keyword text).Quiet :=
  p.quiet_keyword (Bytes.inCode_of_isPlain h)

@[simp] theorem quiet_name {text : Bytes} (h : text.InCode) : (p.name text).Quiet := by
  rw [name, Doc.quiet_text, Casing.name]
  split
  · exact h.isCode_apply p.casing.constants
  · exact h.isCode_apply p.casing.identifiers

@[simp] theorem quiet_names {names : List Bytes} (h : ∀ n ∈ names, n.InCode) :
    (p.names names).Quiet := by
  refine Doc.quiet_join (Doc.quiet_text.mpr (by decide)) fun d hd => ?_
  obtain ⟨n, hn, rfl⟩ := List.mem_map.mp hd
  exact p.quiet_name (h n hn)

@[simp] theorem quiet_leaf {l : Leaf} (h : l.InCode) : (p.leaf l).Quiet := by
  rw [leaf]
  split
  · exact p.quiet_name h
  · split
    · exact p.quiet_keyword h
    · exact Doc.quiet_text.mpr h.isCode_eq

@[simp] theorem quiet_operator {l : Leaf} (h : l.InCode) : (p.operator l).Quiet := by
  rw [operator]
  split
  · exact p.quiet_keyword h
  · exact Doc.quiet_text.mpr h.isCode_eq

@[simp] theorem quiet_parens {parts : List Doc} (h : ∀ d ∈ parts, d.Quiet) :
    (parens parts).Quiet := by
  refine Doc.quiet_wrap (by decide) (Doc.quiet_join ?_ h) (by decide)
  simp +decide

/-! ## Expressions -/

mutual

theorem quiet_expr (x : Expr) (h : x.InCode) : (p.expr x).Quiet := by
  match x, h with
  | .leaf l, h => exact p.quiet_leaf h
  | .unary op x, ⟨hop, hx⟩ =>
      have htext : Bytes.isCode op.text = true := Bytes.InCode.isCode_eq hop
      have hquiet := quiet_expr x hx
      rw [expr]
      split <;> simp [htext, hquiet, hop]
  | .binary op x y, ⟨hop, hx, hy⟩ =>
      have hquietX := quiet_expr x hx
      have hquietY := quiet_expr y hy
      rw [expr]
      split <;> simp [hquietX, hquietY, hop]
  | .paren x, h =>
      have hquiet := quiet_expr x h
      rw [expr]
      simp +decide [hquiet]
  | .call f args, ⟨hf, hargs⟩ =>
      have hquiet := quiet_expr f hf
      have hparens := quiet_parens (quiet_assocs args hargs)
      rw [expr]
      simp [hquiet, hparens]
  | .selected x l, ⟨hx, hl⟩ =>
      have hquiet := quiet_expr x hx
      rw [expr]
      simp +decide [hquiet, hl]
  | .attribute x l, ⟨hx, hl⟩ =>
      have hquiet := quiet_expr x hx
      rw [expr]
      simp +decide [hquiet, hl]
  | .qualified mark x, ⟨hmark, hx⟩ =>
      have hquietMark := quiet_expr mark hmark
      have hquiet := quiet_expr x hx
      rw [expr]
      simp +decide [hquietMark, hquiet]
  | .aggregate elems, h =>
      rw [expr]
      exact quiet_parens (quiet_assocs elems h)

theorem quiet_exprs (xs : List Expr) (h : Expr.AllInCode xs) : ∀ d ∈ p.exprs xs, d.Quiet := by
  cases xs with
  | nil => simp [exprs]
  | cons x rest =>
      rw [exprs, List.forall_mem_cons]
      exact ⟨quiet_expr x h.1, quiet_exprs rest h.2⟩

theorem quiet_assoc (a : Assoc) (h : a.InCode) : (p.assoc a).Quiet := by
  obtain ⟨choices, actual⟩ := a
  obtain ⟨hchoices, hactual⟩ := h
  have hquiet := quiet_expr actual hactual
  have hjoin : (Doc.join (.text " | ") (p.exprs choices)).Quiet :=
    Doc.quiet_join (by simp +decide) (quiet_exprs choices hchoices)
  rw [assoc]
  split
  · exact hquiet
  · simp +decide [hquiet, hjoin]

theorem quiet_assocs (as : List Assoc) (h : Assoc.AllInCode as) : ∀ d ∈ p.assocs as, d.Quiet := by
  cases as with
  | nil => simp [assocs]
  | cons a rest =>
      rw [assocs, List.forall_mem_cons]
      exact ⟨quiet_assoc a h.1, quiet_assocs rest h.2⟩

end

variable {x : Expr} {xs : List Expr} {o : Option Expr}

@[simp] theorem quiet_of_inCode (h : x.InCode) : (p.expr x).Quiet := p.quiet_expr x h

@[simp] theorem quiet_value (h : x.InCode) : (p.value x).Quiet := by simp [value, h]

theorem quiet_mem_exprs (h : ∀ x ∈ xs, x.InCode) : ∀ d ∈ p.exprs xs, d.Quiet :=
  p.quiet_exprs xs (Expr.allInCode_iff.mpr h)

@[simp] theorem quiet_choices (h : ∀ x ∈ xs, x.InCode) : (p.choices xs).Quiet :=
  Doc.quiet_join (by simp +decide) (p.quiet_mem_exprs h)

@[simp] theorem quiet_exprList (h : ∀ x ∈ xs, x.InCode) : (p.exprList xs).Quiet :=
  Doc.quiet_join (by simp +decide) (p.quiet_mem_exprs h)

theorem quiet_clause (word : Bytes) {show_ : Expr → Doc} (hword : word.isPlain = true)
    (hshow : ∀ x, x.InCode → (show_ x).Quiet) (h : ∀ x ∈ o, x.InCode) :
    ∀ d ∈ p.clause word show_ o, d.Quiet := by
  cases o with
  | none => simp [clause]
  | some x =>
      have hx := hshow x (h x rfl)
      simp [clause, hword, hx]

/-! ## Subtypes and lists -/

@[simp] theorem quiet_subtype {s : SubtypeIndication} (h : s.InCode) : (p.subtype s).Quiet := by
  obtain ⟨resolution, mark, constraint⟩ := s
  obtain ⟨hresolution, hmark, hconstraint⟩ := h
  rw [subtype, Doc.quiet_concat]
  simp only [List.forall_mem_append, List.forall_mem_singleton]
  refine ⟨⟨?_, p.quiet_expr mark hmark⟩, ?_⟩
  · cases resolution with
    | none => simp
    | some x =>
        have hx := p.quiet_expr x (hresolution x rfl)
        simp [hx]
  · match constraint, hconstraint with
    | none, _ => simp
    | some (.index ranges), h =>
        have hranges := p.quiet_exprList (h _ rfl)
        simp +decide [hranges]
    | some (.range r), h =>
        have hr := p.quiet_expr r (h _ rfl)
        simp +decide [hr]

@[simp] theorem quiet_initializer (h : ∀ x ∈ o, x.InCode) : (p.initializer o).Quiet := by
  cases o with
  | none => simp [initializer]
  | some x =>
      have hx := p.quiet_value (h x rfl)
      simp +decide [initializer, hx]

theorem quiet_interfaceCells {i : InterfaceItem} (h : i.InCode) :
    ∀ c ∈ p.interfaceCells i, c.Quiet := by
  have hfront : (Doc.words [p.keyword i.objectClass, p.names i.names]).Quiet :=
    Doc.quiet_words (by simpa using ⟨p.quiet_keyword h.objectClass, p.quiet_names h.names⟩)
  have hdefault := p.quiet_initializer h.default
  simp +decide [interfaceCells, hfront, hdefault, h.mode, h.indication]

theorem quiet_mapCells {m : MapItem} (h : m.InCode) : ∀ c ∈ p.mapCells m, c.Quiet := by
  obtain ⟨t, choices, actual⟩ := m
  obtain ⟨hchoices, hactual⟩ := h
  rw [mapCells]
  split
  · simpa [Assoc.actual] using p.quiet_expr actual hactual
  · have hjoin := p.quiet_choices (Expr.allInCode_iff.mp hchoices)
    have hvalue := p.quiet_value hactual
    simpa +decide [Assoc.actual, Assoc.choices] using ⟨hjoin, hvalue⟩

/-! ## Statements on a line of their own -/

theorem quiet_labeled {label : Bytes} (hlabel : label.InCode) {body : Doc} (hbody : body.Quiet) :
    (p.labeled label body).Quiet := by
  rw [labeled]
  split
  · exact hbody
  · simp +decide [hlabel, hbody]

theorem inCode_orElse {a b : Bytes} (ha : a.InCode) (hb : b.InCode) : (a.orElse b).InCode := by
  rw [Bytes.orElse]
  split
  · exact hb
  · exact ha

theorem quiet_stmtEnd (words : List Doc) (hwords : ∀ d ∈ words, d.Quiet) {endLabel label : Bytes}
    (hend : endLabel.InCode) (hlabel : label.InCode) : (p.stmtEnd words endLabel label).Quiet := by
  have hname := p.quiet_name (inCode_orElse hend hlabel)
  rw [stmtEnd, Doc.quiet_concat]
  simp only [List.forall_mem_append]
  refine ⟨⟨⟨by simp +decide, hwords⟩, ?_⟩, by simp +decide⟩
  split
  · simp
  · simp [hname]

theorem quiet_condWaveform {w : CondWaveform} (h : w.InCode) : (p.condWaveform w).Quiet := by
  have hclause := p.quiet_clause "when" (by decide) p.quiet_expr h.cond
  rw [condWaveform, Doc.quiet_concat, List.forall_mem_cons]
  exact ⟨p.quiet_exprList h.waveform, hclause⟩

theorem quiet_signalAssign (hx : x.InCode) {arms : List CondWaveform}
    (harms : ∀ w ∈ arms, w.InCode) : (p.signalAssign x arms).Quiet := by
  have hbody : (Doc.join (.concat [.line, p.keyword "else", .space])
      (arms.map p.condWaveform)).Quiet := by
    refine Doc.quiet_join (by simp +decide) fun d hd => ?_
    obtain ⟨w, hw, rfl⟩ := List.mem_map.mp hd
    exact p.quiet_condWaveform (harms w hw)
  simp +decide [signalAssign, hx, hbody]

theorem quiet_assertion {a : Assertion} (h : a.InCode) : (p.assertion a).Quiet := by
  obtain ⟨postponed, cond, report, severity⟩ := a
  obtain ⟨hcond, hreport, hseverity⟩ := h
  have hquiet := p.quiet_expr cond hcond
  cases postponed <;> cases report <;> cases severity <;>
    simp_all +decide [assertion]

theorem quiet_loopScheme {scheme : LoopScheme} (h : scheme.InCode) :
    ∀ d ∈ p.loopScheme scheme, d.Quiet := by
  match scheme, h with
  | .forIn param range, ⟨hparam, hrange⟩ => simp +decide [loopScheme, hparam, hrange]
  | .while_ cond, h =>
      have hcond := p.quiet_value h
      simp +decide [loopScheme, hcond]
  | .forever, _ => simp [loopScheme]

theorem quiet_branchHead (first : Bool) (h : ∀ x ∈ o, x.InCode) :
    ∀ d ∈ p.branchHead first o, d.Quiet := by
  cases o with
  | none => simp +decide [branchHead]
  | some x =>
      have hx := p.quiet_value (h x rfl)
      cases first <;> simp +decide [branchHead, hx]

/-! ## Declarations on a line of their own -/

theorem quiet_namedEnd (words : Bytes) {endLabel name : Bytes} (hwords : words.InCode)
    (hend : endLabel.InCode) (hname : name.InCode) : (p.namedEnd words endLabel name).Quiet := by
  have hlabel := p.quiet_name (inCode_orElse hend hname)
  simp +decide [namedEnd, hwords, hlabel]

theorem quiet_useClause {c : UseClause} (h : c.InCode) : (p.useClause c).Quiet := by
  have hnames := p.quiet_exprList h
  simp +decide [useClause, hnames]

theorem isCode_rawToken {t : RawToken} (h : t.InCode) : (p.rawToken t).isCode = true := by
  rw [rawToken]
  split
  · exact Bytes.InCode.isCode_apply h p.casing.keywords
  · split
    · rw [Casing.name]
      split
      · exact Bytes.InCode.isCode_apply h p.casing.constants
      · exact Bytes.InCode.isCode_apply h p.casing.identifiers
    · exact Bytes.InCode.isCode_eq h

theorem startsWord_rawToken {t : RawToken} (h : t.text.startsWord = true) :
    (p.rawToken t).startsWord = true := by
  rw [rawToken]
  split
  · exact p.casing.keywords.startsWord_apply h
  · split
    · rw [Casing.name]
      split
      · exact p.casing.constants.startsWord_apply h
      · exact p.casing.identifiers.startsWord_apply h
    · exact h

theorem isSettled_rawAfter (previous : RawToken) {tokens : List RawToken}
    (h : ∀ t ∈ tokens, t.InCode) : Bytes.isSettled (p.rawAfter previous tokens) = true := by
  induction tokens generalizing previous with
  | nil => rfl
  | cons t rest ih =>
      rw [List.forall_mem_cons] at h
      have ht := (Bytes.isCode_iff.mp (p.isCode_rawToken h.1)).2
      rw [rawAfter]
      refine Bytes.isSettled_append (Bytes.isSettled_append ?_ ht) (ih t h.2)
      split <;> rfl

/-- Tokens that are kept as they are start with the first of them. -/
theorem quiet_raw {tokens : List RawToken} (h : ∀ t ∈ tokens, t.InCode)
    (hfirst : ∀ t ∈ tokens.head?, t.text.startsWord = true) : (p.raw tokens).Quiet := by
  cases tokens with
  | nil => simp +decide [raw]
  | cons t rest =>
      rw [List.forall_mem_cons] at h
      have hstart := p.startsWord_rawToken (hfirst t rfl)
      have ht := (Bytes.isCode_iff.mp (p.isCode_rawToken h.1)).2
      rw [raw, Doc.quiet_text, Bytes.isCode_iff]
      refine ⟨?_, Bytes.isSettled_append (Bytes.isSettled_append ht (p.isSettled_rawAfter t h.2))
        (by decide)⟩
      rw [List.append_assoc]
      exact Bytes.isComment_of_startsWord (Bytes.startsWord_append hstart _)

end VhdlStyle.Printer
