import VhdlStyle.Design.Unit.Parser
import VhdlStyle.Proofs.Printing.Words

/-! # Design trees without comments among their words

A design tree holds words of the source as texts. `InCode` says that none of them reads as a
comment in any casing, and that a tree has no parts which are only printed behind a word it does
not have. `Printable` says the same as a class of values, so that instances follow the
constructors. -/

namespace VhdlStyle

/-- A type of things that hold words of the source. -/
class HasWords (α : Type) where
  /-- No word reads as a comment. -/
  InCode : α → Prop

/-- No word of the value reads as a comment. -/
class Printable {α : Type} [HasWords α] (a : α) : Prop where
  words : HasWords.InCode a

section

variable {α β : Type} [HasWords α] [HasWords β]

instance printable_val (a : {a : α // HasWords.InCode a}) : Printable a.val := ⟨a.property⟩

/-! ## Texts and collections -/

instance hasWords_bytes : HasWords Bytes := ⟨Bytes.InCode⟩

instance hasWords_option : HasWords (Option α) := ⟨fun o => ∀ a ∈ o, HasWords.InCode a⟩

instance hasWords_list : HasWords (List α) := ⟨fun as => ∀ a ∈ as, HasWords.InCode a⟩

instance hasWords_prod : HasWords (α × β) :=
  ⟨fun ab => HasWords.InCode ab.1 ∧ HasWords.InCode ab.2⟩

instance printable_none : Printable (none : Option α) := ⟨by simp [HasWords.InCode]⟩

instance printable_some {a : α} [ha : Printable a] : Printable (some a) :=
  ⟨by simpa [HasWords.InCode] using ha.words⟩

instance printable_nil : Printable ([] : List α) := ⟨by simp [HasWords.InCode]⟩

instance printable_cons {a : α} {as : List α} [ha : Printable a] [has : Printable as] :
    Printable (a :: as) :=
  ⟨List.forall_mem_cons.mpr ⟨ha.words, has.words⟩⟩

instance printable_append {as bs : List α} [has : Printable as] [hbs : Printable bs] :
    Printable (as ++ bs) :=
  ⟨List.forall_mem_append.mpr ⟨has.words, hbs.words⟩⟩

instance printable_toList {o : Option α} [ho : Printable o] : Printable o.toList :=
  ⟨fun a ha => ho.words a (Option.mem_toList.mp ha)⟩

instance printable_getD {o : Option α} {a : α} [ho : Printable o] [ha : Printable a] :
    Printable (o.getD a) := by
  cases o with
  | none => exact ha
  | some b => exact ⟨ho.words b rfl⟩

instance printable_optionMap {o : Option α} {f : α → β} [ho : Printable o]
    [hf : ∀ a : {a : α // HasWords.InCode a}, Printable (f a.val)] : Printable (o.map f) := by
  cases o with
  | none => exact printable_none
  | some a =>
      have ha := hf ⟨a, ho.words a rfl⟩
      exact printable_some

instance printable_pair {a : α} {b : β} [ha : Printable a] [hb : Printable b] : Printable (a, b) :=
  ⟨ha.words, hb.words⟩

theorem Printable.of_some {a : α} (h : Printable (some a)) : Printable a := ⟨h.words a rfl⟩

theorem Printable.of_pair {a : α} {b : β} (h : Printable (a, b)) : Printable a ∧ Printable b :=
  ⟨⟨h.words.1⟩, ⟨h.words.2⟩⟩

instance printable_noText : Printable ([] : Bytes) := ⟨Bytes.inCode_nil⟩

end

/-! ## Things without words -/

instance hasWords_unit : HasWords Unit := ⟨fun _ => True⟩

instance hasWords_bool : HasWords Bool := ⟨fun _ => True⟩

instance hasWords_kind : HasWords Kind := ⟨fun _ => True⟩

instance hasWords_comment : HasWords Comment := ⟨fun _ => True⟩

instance hasWords_rowTrivia : HasWords RowTrivia := ⟨fun _ => True⟩

instance hasWords_objectClass : HasWords ObjectClass := ⟨fun _ => True⟩

instance printable_unit (a : Unit) : Printable a := ⟨trivial⟩

instance printable_bool (a : Bool) : Printable a := ⟨trivial⟩

instance printable_comments (a : List Comment) : Printable a := ⟨fun _ _ => trivial⟩

instance printable_rowTrivia (a : RowTrivia) : Printable a := ⟨trivial⟩

instance printable_objectClass (a : ObjectClass) : Printable a := ⟨trivial⟩

/-! ## Tokens and leaves -/

/-- The token is a word, or the end and without a text. -/
def Token.InCode (t : Token) : Prop :=
  if t.kind = .eof then t.text = [] else (Leaf.mk t.kind t.text).Sound

namespace Token.InCode

variable {t : Token}

theorem sound (h : t.InCode) (hk : t.kind ≠ .eof) : (Leaf.mk t.kind t.text).Sound := by
  rwa [InCode, if_neg hk] at h

theorem text (h : t.InCode) : t.text.InCode := by
  by_cases hk : t.kind = .eof
  · rw [InCode, if_pos hk] at h
    rw [h]
    exact Bytes.inCode_nil
  · exact (h.sound hk).inCode

theorem startsWord (h : t.InCode) (hk : t.kind ∉ .eof :: Lexeme.delimiterKinds) :
    t.text.startsWord = true := by
  rw [List.mem_cons, not_or] at hk
  exact (h.sound hk.1).startsWord hk.2

theorem isVerbatim (h : t.InCode) (hk : t.kind = .decimalLit ∨ t.kind = .basedLit) :
    CaseStyle.isVerbatim t.text = true :=
  (h.sound (by rintro heof; simp [heof] at hk)).isVerbatim_number hk

theorem isPlain (h : t.InCode) (hk : t.kind ∈ Kind.keywords) : t.text.isPlain = true :=
  (h.sound (by rintro heof; exact absurd hk (by rw [heof]; decide))).isPlain_keyword hk

end Token.InCode

instance hasWords_token : HasWords Token := ⟨Token.InCode⟩

instance printable_text {t : Token} [ht : Printable t] : Printable t.text :=
  ⟨Token.InCode.text ht.words⟩

def Leaf.InCode (l : Leaf) : Prop := l.text.InCode

instance hasWords_leaf : HasWords Leaf := ⟨Leaf.InCode⟩

instance printable_leafMk {k : Kind} {text : Bytes} [h : Printable text] :
    Printable (Leaf.mk k text) := ⟨h.words⟩

def RawToken.InCode (t : RawToken) : Prop := t.text.InCode

instance hasWords_rawToken : HasWords RawToken := ⟨RawToken.InCode⟩

/-! ## Expressions -/

mutual

def Expr.InCode : Expr → Prop
  | .leaf l => l.InCode
  | .unary op x => op.InCode ∧ x.InCode
  | .binary op x y => op.InCode ∧ x.InCode ∧ y.InCode
  | .paren x => x.InCode
  | .call callee args => callee.InCode ∧ Assoc.AllInCode args
  | .selected x l | .attribute x l => x.InCode ∧ l.InCode
  | .qualified mark x => mark.InCode ∧ x.InCode
  | .aggregate elems => Assoc.AllInCode elems

def Expr.AllInCode : List Expr → Prop
  | [] => True
  | x :: rest => x.InCode ∧ Expr.AllInCode rest

def Assoc.InCode : Assoc → Prop
  | .mk choices actual => Expr.AllInCode choices ∧ actual.InCode

def Assoc.AllInCode : List Assoc → Prop
  | [] => True
  | a :: rest => a.InCode ∧ Assoc.AllInCode rest

end

theorem Expr.allInCode_iff {xs : List Expr} : AllInCode xs ↔ ∀ x ∈ xs, x.InCode := by
  induction xs with
  | nil => simp [AllInCode]
  | cons x rest ih => rw [AllInCode, List.forall_mem_cons, ih]

theorem Assoc.allInCode_iff {as : List Assoc} : AllInCode as ↔ ∀ a ∈ as, a.InCode := by
  induction as with
  | nil => simp [AllInCode]
  | cons a rest ih => rw [AllInCode, List.forall_mem_cons, ih]

instance hasWords_expr : HasWords Expr := ⟨Expr.InCode⟩

instance hasWords_assoc : HasWords Assoc := ⟨Assoc.InCode⟩

section

variable {op l : Leaf} {x y : Expr} {as : List Assoc} {xs : List Expr}

instance printable_leaf [h : Printable l] : Printable (Expr.leaf l) := ⟨h.words⟩

instance printable_ident {name : Bytes} [h : Printable name] : Printable (Expr.ident name) :=
  ⟨h.words⟩

instance printable_missing : Printable Expr.missing := ⟨Bytes.inCode_nil⟩

instance printable_unary [hop : Printable op] [hx : Printable x] : Printable (Expr.unary op x) :=
  ⟨hop.words, hx.words⟩

instance printable_binary [hop : Printable op] [hx : Printable x] [hy : Printable y] :
    Printable (Expr.binary op x y) := ⟨hop.words, hx.words, hy.words⟩

instance printable_paren [hx : Printable x] : Printable (Expr.paren x) := ⟨hx.words⟩

instance printable_call [hx : Printable x] [has : Printable as] : Printable (Expr.call x as) :=
  ⟨hx.words, Assoc.allInCode_iff.mpr has.words⟩

instance printable_selected [hx : Printable x] [hl : Printable l] :
    Printable (Expr.selected x l) := ⟨hx.words, hl.words⟩

instance printable_attribute [hx : Printable x] [hl : Printable l] :
    Printable (Expr.attribute x l) := ⟨hx.words, hl.words⟩

instance printable_qualified [hx : Printable x] [hy : Printable y] :
    Printable (Expr.qualified x y) := ⟨hx.words, hy.words⟩

instance printable_aggregate [has : Printable as] : Printable (Expr.aggregate as) :=
  ⟨Assoc.allInCode_iff.mpr has.words⟩

instance printable_assoc [hxs : Printable xs] [hx : Printable x] : Printable (Assoc.mk xs x) :=
  ⟨Expr.allInCode_iff.mpr hxs.words, hx.words⟩

end

/-! ## Subtypes and lists -/

def Constraint.InCode : Constraint → Prop
  | .index ranges => ∀ x ∈ ranges, x.InCode
  | .range r => r.InCode

instance hasWords_constraint : HasWords Constraint := ⟨Constraint.InCode⟩

structure SubtypeIndication.InCode (s : SubtypeIndication) : Prop where
  resolution : ∀ x ∈ s.resolution, x.InCode
  mark : s.mark.InCode
  constraint : ∀ c ∈ s.constraint, c.InCode

instance hasWords_subtype : HasWords SubtypeIndication := ⟨SubtypeIndication.InCode⟩

instance printable_index {ranges : List Expr} [h : Printable ranges] :
    Printable (Constraint.index ranges) := ⟨h.words⟩

instance printable_range {r : Expr} [h : Printable r] : Printable (Constraint.range r) := ⟨h.words⟩

instance printable_subtype {resolution : Option Expr} {mark : Expr}
    {constraint : Option Constraint} [hr : Printable resolution] [hm : Printable mark]
    [hc : Printable constraint] :
    Printable (SubtypeIndication.mk resolution mark constraint) := ⟨⟨hr.words, hm.words, hc.words⟩⟩

structure InterfaceItem.InCode (i : InterfaceItem) : Prop where
  objectClass : i.objectClass.InCode
  names : ∀ n ∈ i.names, n.InCode
  mode : i.mode.InCode
  indication : i.indication.InCode
  default : ∀ x ∈ i.default, x.InCode

instance hasWords_interfaceItem : HasWords InterfaceItem := ⟨InterfaceItem.InCode⟩

def InterfaceList.InCode (l : InterfaceList) : Prop := ∀ i ∈ l.items, i.InCode

instance hasWords_interfaceList : HasWords InterfaceList := ⟨InterfaceList.InCode⟩

def MapItem.InCode (m : MapItem) : Prop := m.assoc.InCode

instance hasWords_mapItem : HasWords MapItem := ⟨MapItem.InCode⟩

def MapList.InCode (l : MapList) : Prop := ∀ m ∈ l.items, m.InCode

instance hasWords_mapList : HasWords MapList := ⟨MapList.InCode⟩

section

variable {t : RowTrivia} {inline objectClass mode : Bytes} {names : List Bytes}
  {indication : SubtypeIndication} {default : Option Expr} {a : Assoc} {tail : List Comment}

instance printable_interfaceItem [hc : Printable objectClass] [hn : Printable names]
    [hm : Printable mode] [hi : Printable indication] [hd : Printable default] :
    Printable (InterfaceItem.mk t objectClass names mode indication default) :=
  ⟨⟨hc.words, hn.words, hm.words, hi.words, hd.words⟩⟩

instance printable_interfaceItem_setInline {i : InterfaceItem} [h : Printable i] :
    Printable (i.setInline inline) :=
  ⟨⟨h.words.objectClass, h.words.names, h.words.mode, h.words.indication, h.words.default⟩⟩

instance printable_interfaceList {items : List InterfaceItem} [h : Printable items] :
    Printable (InterfaceList.mk items tail) := ⟨h.words⟩

instance printable_mapItem [h : Printable a] : Printable (MapItem.mk t a) := ⟨h.words⟩

instance printable_mapItem_setInline {m : MapItem} [h : Printable m] :
    Printable (MapList.setInline m inline) := ⟨h.words⟩

instance printable_mapList {items : List MapItem} [h : Printable items] :
    Printable (MapList.mk items tail) := ⟨h.words⟩

end

/-! ## Sequential statements -/

def Head.InCode (h : Head) : Prop := h.label.InCode

instance hasWords_head : HasWords Head := ⟨Head.InCode⟩

instance printable_head {t : RowTrivia} {label : Bytes} [h : Printable label] :
    Printable (Head.mk t label) := ⟨h.words⟩

instance printable_head_withInline {h : Head} {inline : Bytes} [hh : Printable h] :
    Printable (h.withInline inline) := ⟨hh.words⟩

structure CondWaveform.InCode (w : CondWaveform) : Prop where
  waveform : ∀ x ∈ w.waveform, x.InCode
  cond : ∀ x ∈ w.cond, x.InCode

instance hasWords_condWaveform : HasWords CondWaveform := ⟨CondWaveform.InCode⟩

instance printable_condWaveform {waveform : List Expr} {cond : Option Expr}
    [hw : Printable waveform] [hc : Printable cond] : Printable (CondWaveform.mk waveform cond) :=
  ⟨⟨hw.words, hc.words⟩⟩

structure Assertion.InCode (a : Assertion) : Prop where
  cond : a.cond.InCode
  report : ∀ x ∈ a.report, x.InCode
  severity : ∀ x ∈ a.severity, x.InCode

instance hasWords_assertion : HasWords Assertion := ⟨Assertion.InCode⟩

instance printable_assertion {postponed : Bool} {cond : Expr} {report severity : Option Expr}
    [hc : Printable cond] [hr : Printable report] [hs : Printable severity] :
    Printable (Assertion.mk postponed cond report severity) := ⟨⟨hc.words, hr.words, hs.words⟩⟩

def LoopScheme.InCode : LoopScheme → Prop
  | .forIn param range => param.InCode ∧ range.InCode
  | .while_ cond => cond.InCode
  | .forever => True

instance hasWords_loopScheme : HasWords LoopScheme := ⟨LoopScheme.InCode⟩

instance printable_forIn {param : Bytes} {range : Expr} [hp : Printable param]
    [hr : Printable range] : Printable (LoopScheme.forIn param range) := ⟨hp.words, hr.words⟩

instance printable_while {cond : Expr} [h : Printable cond] : Printable (LoopScheme.while_ cond) :=
  ⟨h.words⟩

instance printable_forever : Printable LoopScheme.forever := ⟨trivial⟩

mutual

def SeqStmt.InCode : SeqStmt → Prop
  | .signalAssign h target arms => h.InCode ∧ target.InCode ∧ ∀ w ∈ arms, w.InCode
  | .varAssign h target value => h.InCode ∧ target.InCode ∧ value.InCode
  | .ifStmt h branches endLabel => h.InCode ∧ IfBranch.AllInCode branches ∧ endLabel.InCode
  | .caseStmt h _ selector alts endLabel _ =>
    h.InCode ∧ selector.InCode ∧ CaseAlt.AllInCode alts ∧ endLabel.InCode
  | .loop h scheme stmts endLabel _ =>
    h.InCode ∧ scheme.InCode ∧ SeqStmt.AllInCode stmts ∧ endLabel.InCode
  | .loopControl h keyword loopLabel cond =>
    h.InCode ∧ keyword.InCode ∧ loopLabel.InCode ∧ ∀ x ∈ cond, x.InCode
  | .returnStmt h value => h.InCode ∧ ∀ x ∈ value, x.InCode
  | .nullStmt h => h.InCode
  | .waitStmt h on until_ for_ => h.InCode ∧ (∀ x ∈ on, x.InCode) ∧ (∀ x ∈ until_, x.InCode) ∧
    ∀ x ∈ for_, x.InCode
  | .reportStmt h message severity => h.InCode ∧ message.InCode ∧ ∀ x ∈ severity, x.InCode
  | .assertStmt h assertion => h.InCode ∧ assertion.InCode
  | .call h callee => h.InCode ∧ callee.InCode

def SeqStmt.AllInCode : List SeqStmt → Prop
  | [] => True
  | s :: rest => s.InCode ∧ SeqStmt.AllInCode rest

def IfBranch.InCode : IfBranch → Prop
  | .mk cond stmts _ => (∀ x ∈ cond, x.InCode) ∧ SeqStmt.AllInCode stmts

def IfBranch.AllInCode : List IfBranch → Prop
  | [] => True
  | b :: rest => b.InCode ∧ IfBranch.AllInCode rest

def CaseAlt.InCode : CaseAlt → Prop
  | .mk _ choices stmts => (∀ x ∈ choices, x.InCode) ∧ SeqStmt.AllInCode stmts

def CaseAlt.AllInCode : List CaseAlt → Prop
  | [] => True
  | a :: rest => a.InCode ∧ CaseAlt.AllInCode rest

end

theorem SeqStmt.allInCode_iff {ss : List SeqStmt} : AllInCode ss ↔ ∀ s ∈ ss, s.InCode := by
  induction ss with
  | nil => simp [AllInCode]
  | cons s rest ih => rw [AllInCode, List.forall_mem_cons, ih]

theorem IfBranch.allInCode_iff {bs : List IfBranch} : AllInCode bs ↔ ∀ b ∈ bs, b.InCode := by
  induction bs with
  | nil => simp [AllInCode]
  | cons b rest ih => rw [AllInCode, List.forall_mem_cons, ih]

theorem CaseAlt.allInCode_iff {as : List CaseAlt} : AllInCode as ↔ ∀ a ∈ as, a.InCode := by
  induction as with
  | nil => simp [AllInCode]
  | cons a rest ih => rw [AllInCode, List.forall_mem_cons, ih]

instance hasWords_seqStmt : HasWords SeqStmt := ⟨SeqStmt.InCode⟩

instance hasWords_ifBranch : HasWords IfBranch := ⟨IfBranch.InCode⟩

instance hasWords_caseAlt : HasWords CaseAlt := ⟨CaseAlt.InCode⟩

section

variable {h : Head} {t : RowTrivia} {tail : List Comment} {target value message callee : Expr}
  {cond until_ for_ severity : Option Expr} {on choices : List Expr}
  {endLabel word loopLabel : Bytes} {stmts : List SeqStmt} [hh : Printable h]

instance printable_signalAssign {arms : List CondWaveform} [ht : Printable target]
    [ha : Printable arms] : Printable (SeqStmt.signalAssign h target arms) :=
  ⟨hh.words, ht.words, ha.words⟩

instance printable_varAssign [ht : Printable target] [hv : Printable value] :
    Printable (SeqStmt.varAssign h target value) := ⟨hh.words, ht.words, hv.words⟩

instance printable_ifStmt {branches : List IfBranch} [hb : Printable branches]
    [he : Printable endLabel] : Printable (SeqStmt.ifStmt h branches endLabel) :=
  ⟨hh.words, IfBranch.allInCode_iff.mpr hb.words, he.words⟩

instance printable_caseStmt {matching : Bool} {alts : List CaseAlt} [ht : Printable target]
    [ha : Printable alts] [he : Printable endLabel] :
    Printable (SeqStmt.caseStmt h matching target alts endLabel tail) :=
  ⟨hh.words, ht.words, CaseAlt.allInCode_iff.mpr ha.words, he.words⟩

instance printable_loop {scheme : LoopScheme} [hs : Printable scheme] [hb : Printable stmts]
    [he : Printable endLabel] : Printable (SeqStmt.loop h scheme stmts endLabel tail) :=
  ⟨hh.words, hs.words, SeqStmt.allInCode_iff.mpr hb.words, he.words⟩

instance printable_loopControl [hw : Printable word] [hl : Printable loopLabel]
    [hc : Printable cond] : Printable (SeqStmt.loopControl h word loopLabel cond) :=
  ⟨hh.words, hw.words, hl.words, hc.words⟩

instance printable_returnStmt [hc : Printable cond] : Printable (SeqStmt.returnStmt h cond) :=
  ⟨hh.words, hc.words⟩

instance printable_nullStmt : Printable (SeqStmt.nullStmt h) := ⟨hh.words⟩

instance printable_waitStmt [ho : Printable on] [hu : Printable until_] [hf : Printable for_] :
    Printable (SeqStmt.waitStmt h on until_ for_) := ⟨hh.words, ho.words, hu.words, hf.words⟩

instance printable_reportStmt [hm : Printable message] [hs : Printable severity] :
    Printable (SeqStmt.reportStmt h message severity) := ⟨hh.words, hm.words, hs.words⟩

instance printable_assertStmt {a : Assertion} [ha : Printable a] :
    Printable (SeqStmt.assertStmt h a) := ⟨hh.words, ha.words⟩

instance printable_seqCall [hc : Printable callee] : Printable (SeqStmt.call h callee) :=
  ⟨hh.words, hc.words⟩

omit hh

instance printable_ifBranch [hc : Printable cond] [hs : Printable stmts] :
    Printable (IfBranch.mk cond stmts tail) := ⟨hc.words, SeqStmt.allInCode_iff.mpr hs.words⟩

instance printable_caseAlt [hc : Printable choices] [hs : Printable stmts] :
    Printable (CaseAlt.mk t choices stmts) := ⟨hc.words, SeqStmt.allInCode_iff.mpr hs.words⟩

end

/-! ## Declarations -/

structure PhysicalUnit.InCode (u : PhysicalUnit) : Prop where
  name : u.name.InCode
  value : ∀ x ∈ u.value, x.InCode

instance hasWords_physicalUnit : HasWords PhysicalUnit := ⟨PhysicalUnit.InCode⟩

structure RecordField.InCode (f : RecordField) : Prop where
  names : ∀ n ∈ f.names, n.InCode
  indication : f.indication.InCode

instance hasWords_recordField : HasWords RecordField := ⟨RecordField.InCode⟩

instance printable_physicalUnit {t : RowTrivia} {name : Bytes} {value : Option Expr}
    [hn : Printable name] [hv : Printable value] : Printable (PhysicalUnit.mk t name value) :=
  ⟨⟨hn.words, hv.words⟩⟩

instance printable_recordField {t : RowTrivia} {names : List Bytes}
    {indication : SubtypeIndication} [hn : Printable names] [hi : Printable indication] :
    Printable (RecordField.mk t names indication) := ⟨⟨hn.words, hi.words⟩⟩

def TypeDef.InCode : TypeDef → Prop
  | .enum literals => ∀ l ∈ literals, l.InCode
  | .range r units => r.InCode ∧ ∀ u ∈ units, u.InCode
  | .array indexes element => (∀ x ∈ indexes, x.InCode) ∧ element.InCode
  | .record fields endLabel _ => (∀ f ∈ fields, f.InCode) ∧ endLabel.InCode
  | .access target => target.InCode

instance hasWords_typeDef : HasWords TypeDef := ⟨TypeDef.InCode⟩

section

variable {indication : SubtypeIndication} {endLabel : Bytes} {tail : List Comment}

instance printable_enum {literals : List Leaf} [h : Printable literals] :
    Printable (TypeDef.enum literals) := ⟨h.words⟩

instance printable_rangeType {r : Expr} {units : List PhysicalUnit} [hr : Printable r]
    [hu : Printable units] : Printable (TypeDef.range r units) := ⟨hr.words, hu.words⟩

instance printable_array {indexes : List Expr} [hx : Printable indexes] [hi : Printable indication] :
    Printable (TypeDef.array indexes indication) := ⟨hx.words, hi.words⟩

instance printable_record {fields : List RecordField} [hf : Printable fields]
    [he : Printable endLabel] : Printable (TypeDef.record fields endLabel tail) :=
  ⟨hf.words, he.words⟩

instance printable_access [hi : Printable indication] : Printable (TypeDef.access indication) :=
  ⟨hi.words⟩

end

structure SubprogramSpec.InCode (s : SubprogramSpec) : Prop where
  kind : s.kind.InCode
  purity : s.purity.InCode
  name : s.name.InCode
  params : ∀ i ∈ s.params, i.InCode
  result : ∀ x ∈ s.result, x.InCode

instance hasWords_subprogramSpec : HasWords SubprogramSpec := ⟨SubprogramSpec.InCode⟩

def UseClause.InCode (c : UseClause) : Prop := ∀ x ∈ c.names, x.InCode

instance hasWords_useClause : HasWords UseClause := ⟨UseClause.InCode⟩

instance printable_subprogramSpec {kind purity name : Bytes} {params : List InterfaceItem}
    {tail : List Comment} {result : Option Expr} [hk : Printable kind] [hp : Printable purity]
    [hn : Printable name] [hi : Printable params] [hr : Printable result] :
    Printable (SubprogramSpec.mk kind purity name params tail result) :=
  ⟨⟨hk.words, hp.words, hn.words, hi.words, hr.words⟩⟩

instance printable_useClause {t : RowTrivia} {names : List Expr} [h : Printable names] :
    Printable (UseClause.mk t names) := ⟨h.words⟩

mutual

/-- Tokens that are kept as they are run together in print: the first of them starts the text. -/
def Decl.InCode : Decl → Prop
  | .object _ _ keyword names indication default =>
    keyword.InCode ∧ (∀ n ∈ names, n.InCode) ∧ indication.InCode ∧ ∀ x ∈ default, x.InCode
  | .type _ name definition => name.InCode ∧ ∀ d ∈ definition, d.InCode
  | .subtype _ name indication => name.InCode ∧ indication.InCode
  | .alias _ name indication target =>
    name.InCode ∧ (∀ s ∈ indication, s.InCode) ∧ target.InCode
  | .component _ name generics ports endLabel _ =>
    name.InCode ∧ (∀ l ∈ generics, l.InCode) ∧ (∀ l ∈ ports, l.InCode) ∧ endLabel.InCode
  | .attribute _ name mark => name.InCode ∧ mark.InCode
  | .attributeSpec _ name entities entityClass value =>
    name.InCode ∧ (∀ x ∈ entities, x.InCode) ∧ entityClass.InCode ∧ value.InCode
  | .subprogram _ spec => spec.InCode
  | .subprogramBody _ spec decls _ stmts endLabel _ =>
    spec.InCode ∧ Decl.AllInCode decls ∧ (∀ s ∈ stmts, s.InCode) ∧ endLabel.InCode
  | .use clause => clause.InCode
  | .raw _ tokens =>
    (∀ t ∈ tokens, t.InCode) ∧ ∀ t ∈ tokens.head?, t.text.startsWord = true

def Decl.AllInCode : List Decl → Prop
  | [] => True
  | d :: rest => d.InCode ∧ Decl.AllInCode rest

end

theorem Decl.allInCode_iff {ds : List Decl} : AllInCode ds ↔ ∀ d ∈ ds, d.InCode := by
  induction ds with
  | nil => simp [AllInCode]
  | cons d rest ih => rw [AllInCode, List.forall_mem_cons, ih]

instance hasWords_decl : HasWords Decl := ⟨Decl.InCode⟩

section

variable {t : RowTrivia} {tail declTail : List Comment} {name word endLabel : Bytes}
  {names : List Bytes} {indication : SubtypeIndication} {default : Option Expr} {target : Expr}
  {spec : SubprogramSpec}

instance printable_object {c : ObjectClass} [hw : Printable word] [hn : Printable names]
    [hi : Printable indication] [hd : Printable default] :
    Printable (Decl.object t c word names indication default) :=
  ⟨hw.words, hn.words, hi.words, hd.words⟩

instance printable_type {definition : Option TypeDef} [hn : Printable name]
    [hd : Printable definition] : Printable (Decl.type t name definition) := ⟨hn.words, hd.words⟩

instance printable_subtypeDecl [hn : Printable name] [hi : Printable indication] :
    Printable (Decl.subtype t name indication) := ⟨hn.words, hi.words⟩

instance printable_alias {o : Option SubtypeIndication} [hn : Printable name] [ho : Printable o]
    [ht : Printable target] : Printable (Decl.alias t name o target) :=
  ⟨hn.words, ho.words, ht.words⟩

instance printable_component {generics ports : Option InterfaceList} [hn : Printable name]
    [hg : Printable generics] [hp : Printable ports] [he : Printable endLabel] :
    Printable (Decl.component t name generics ports endLabel tail) :=
  ⟨hn.words, hg.words, hp.words, he.words⟩

instance printable_attributeDecl [hn : Printable name] [ht : Printable target] :
    Printable (Decl.attribute t name target) := ⟨hn.words, ht.words⟩

instance printable_attributeSpec {entities : List Expr} [hn : Printable name]
    [hx : Printable entities] [hw : Printable word] [ht : Printable target] :
    Printable (Decl.attributeSpec t name entities word target) :=
  ⟨hn.words, hx.words, hw.words, ht.words⟩

instance printable_subprogram [hs : Printable spec] : Printable (Decl.subprogram t spec) :=
  ⟨hs.words⟩

instance printable_subprogramBody {decls : List Decl} {stmts : List SeqStmt}
    [hs : Printable spec] [hd : Printable decls] [hb : Printable stmts] [he : Printable endLabel] :
    Printable (Decl.subprogramBody t spec decls declTail stmts endLabel tail) :=
  ⟨hs.words, Decl.allInCode_iff.mpr hd.words, hb.words, he.words⟩

instance printable_use {clause : UseClause} [h : Printable clause] : Printable (Decl.use clause) :=
  ⟨h.words⟩

end

/-! ## Concurrent statements -/

structure SelectedWaveform.InCode (w : SelectedWaveform) : Prop where
  waveform : ∀ x ∈ w.waveform, x.InCode
  choices : ∀ x ∈ w.choices, x.InCode

instance hasWords_selectedWaveform : HasWords SelectedWaveform := ⟨SelectedWaveform.InCode⟩

instance printable_selectedWaveform {waveform choices : List Expr} [hw : Printable waveform]
    [hc : Printable choices] : Printable (SelectedWaveform.mk waveform choices) :=
  ⟨⟨hw.words, hc.words⟩⟩

structure ProcessBody.InCode (b : ProcessBody) : Prop where
  sensitivity : ∀ x ∈ b.sensitivity, x.InCode
  decls : ∀ d ∈ b.decls, d.InCode
  stmts : ∀ s ∈ b.stmts, s.InCode
  endLabel : b.endLabel.InCode

instance hasWords_processBody : HasWords ProcessBody := ⟨ProcessBody.InCode⟩

instance printable_processBody {postponed hasIs : Bool} {sensitivity : List Expr}
    {decls : List Decl} {declTail tail : List Comment} {stmts : List SeqStmt} {endLabel : Bytes}
    [hn : Printable sensitivity] [hd : Printable decls] [hs : Printable stmts]
    [he : Printable endLabel] :
    Printable (ProcessBody.mk postponed sensitivity hasIs decls declTail stmts endLabel tail) :=
  ⟨⟨hn.words, hd.words, hs.words, he.words⟩⟩

structure Instantiation.InCode (i : Instantiation) : Prop where
  unitKind : i.unitKind.InCode
  unit : i.unit.InCode
  arch : i.arch.InCode
  genericMap : ∀ l ∈ i.genericMap, l.InCode
  portMap : ∀ l ∈ i.portMap, l.InCode

instance hasWords_instantiation : HasWords Instantiation := ⟨Instantiation.InCode⟩

instance printable_instantiation {unitKind arch : Bytes} {unit : Expr}
    {genericMap portMap : Option MapList} [hk : Printable unitKind] [hu : Printable unit]
    [ha : Printable arch] [hg : Printable genericMap] [hp : Printable portMap] :
    Printable (Instantiation.mk unitKind unit arch genericMap portMap) :=
  ⟨⟨hk.words, hu.words, ha.words, hg.words, hp.words⟩⟩

mutual

def ConcStmt.InCode : ConcStmt → Prop
  | .assign h target arms => h.InCode ∧ target.InCode ∧ ∀ w ∈ arms, w.InCode
  | .selectedAssign h selector target arms =>
    h.InCode ∧ selector.InCode ∧ target.InCode ∧ ∀ w ∈ arms, w.InCode
  | .process h body => h.InCode ∧ body.InCode
  | .instantiation h inst => h.InCode ∧ inst.InCode
  | .forGenerate h param range body endLabel =>
    h.InCode ∧ param.InCode ∧ range.InCode ∧ body.InCode ∧ endLabel.InCode
  | .ifGenerate h branches endLabel =>
    h.InCode ∧ GenerateBranch.AllInCode branches ∧ endLabel.InCode
  | .assertStmt h assertion => h.InCode ∧ assertion.InCode
  | .call h callee => h.InCode ∧ callee.InCode

def ConcStmt.AllInCode : List ConcStmt → Prop
  | [] => True
  | s :: rest => s.InCode ∧ ConcStmt.AllInCode rest

/-- Declarations stand only in front of `begin`. -/
def GenerateBody.InCode : GenerateBody → Prop
  | .mk decls hasBegin stmts _ =>
    (∀ d ∈ decls, d.InCode) ∧ ConcStmt.AllInCode stmts ∧ (hasBegin = false → decls = [])

def GenerateBranch.InCode : GenerateBranch → Prop
  | .mk cond body => (∀ x ∈ cond, x.InCode) ∧ body.InCode

def GenerateBranch.AllInCode : List GenerateBranch → Prop
  | [] => True
  | b :: rest => b.InCode ∧ GenerateBranch.AllInCode rest

end

theorem ConcStmt.allInCode_iff {ss : List ConcStmt} : AllInCode ss ↔ ∀ s ∈ ss, s.InCode := by
  induction ss with
  | nil => simp [AllInCode]
  | cons s rest ih => rw [AllInCode, List.forall_mem_cons, ih]

theorem GenerateBranch.allInCode_iff {bs : List GenerateBranch} :
    AllInCode bs ↔ ∀ b ∈ bs, b.InCode := by
  induction bs with
  | nil => simp [AllInCode]
  | cons b rest ih => rw [AllInCode, List.forall_mem_cons, ih]

instance hasWords_concStmt : HasWords ConcStmt := ⟨ConcStmt.InCode⟩

instance hasWords_generateBody : HasWords GenerateBody := ⟨GenerateBody.InCode⟩

instance hasWords_generateBranch : HasWords GenerateBranch := ⟨GenerateBranch.InCode⟩

section

variable {h : Head} {target callee : Expr} {cond : Option Expr} {endLabel : Bytes}
  {body : GenerateBody} [hh : Printable h]

instance printable_assign {arms : List CondWaveform} [ht : Printable target]
    [ha : Printable arms] : Printable (ConcStmt.assign h target arms) :=
  ⟨hh.words, ht.words, ha.words⟩

instance printable_selectedAssign {selector : Expr} {arms : List SelectedWaveform}
    [hs : Printable selector] [ht : Printable target] [ha : Printable arms] :
    Printable (ConcStmt.selectedAssign h selector target arms) :=
  ⟨hh.words, hs.words, ht.words, ha.words⟩

instance printable_process {b : ProcessBody} [hb : Printable b] :
    Printable (ConcStmt.process h b) := ⟨hh.words, hb.words⟩

instance printable_instantiationStmt {i : Instantiation} [hi : Printable i] :
    Printable (ConcStmt.instantiation h i) := ⟨hh.words, hi.words⟩

instance printable_forGenerate {param : Bytes} {range : Expr} [hp : Printable param]
    [hr : Printable range] [hb : Printable body] [he : Printable endLabel] :
    Printable (ConcStmt.forGenerate h param range body endLabel) :=
  ⟨hh.words, hp.words, hr.words, hb.words, he.words⟩

instance printable_ifGenerate {branches : List GenerateBranch} [hb : Printable branches]
    [he : Printable endLabel] : Printable (ConcStmt.ifGenerate h branches endLabel) :=
  ⟨hh.words, GenerateBranch.allInCode_iff.mpr hb.words, he.words⟩

instance printable_concAssert {a : Assertion} [ha : Printable a] :
    Printable (ConcStmt.assertStmt h a) := ⟨hh.words, ha.words⟩

instance printable_concCall [hc : Printable callee] : Printable (ConcStmt.call h callee) :=
  ⟨hh.words, hc.words⟩

omit hh

instance printable_generateBranch [hc : Printable cond] [hb : Printable body] :
    Printable (GenerateBranch.mk cond body) := ⟨hc.words, hb.words⟩

end

/-! ## Design units and files -/

def ContextItem.InCode : ContextItem → Prop
  | .library _ names => ∀ n ∈ names, n.InCode
  | .use clause => clause.InCode

instance hasWords_contextItem : HasWords ContextItem := ⟨ContextItem.InCode⟩

instance printable_library {t : RowTrivia} {names : List Bytes} [h : Printable names] :
    Printable (ContextItem.library t names) := ⟨h.words⟩

instance printable_contextUse {clause : UseClause} [h : Printable clause] :
    Printable (ContextItem.use clause) := ⟨h.words⟩

/-- Statements of an entity stand only behind `begin`. -/
def UnitBody.InCode : UnitBody → Prop
  | .entity generics ports decls hasBegin stmts =>
    (∀ l ∈ generics, l.InCode) ∧ (∀ l ∈ ports, l.InCode) ∧ (∀ d ∈ decls, d.InCode) ∧
      (∀ s ∈ stmts, s.InCode) ∧ (hasBegin = false → stmts = [])
  | .architecture entityName decls _ stmts =>
    entityName.InCode ∧ (∀ d ∈ decls, d.InCode) ∧ ∀ s ∈ stmts, s.InCode
  | .package generics decls => (∀ l ∈ generics, l.InCode) ∧ ∀ d ∈ decls, d.InCode
  | .packageBody decls => ∀ d ∈ decls, d.InCode

instance hasWords_unitBody : HasWords UnitBody := ⟨UnitBody.InCode⟩

structure DesignUnit.InCode (u : DesignUnit) : Prop where
  context : ∀ i ∈ u.context, i.InCode
  name : u.name.InCode
  body : u.body.InCode
  endLabel : u.endLabel.InCode

instance hasWords_designUnit : HasWords DesignUnit := ⟨DesignUnit.InCode⟩

def DesignFile.InCode (f : DesignFile) : Prop := ∀ u ∈ f.units, u.InCode

instance hasWords_designFile : HasWords DesignFile := ⟨DesignFile.InCode⟩

section

variable {t : RowTrivia} {tail declTail : List Comment} {name endLabel : Bytes}
  {generics : Option InterfaceList} {decls : List Decl} {stmts : List ConcStmt}

instance printable_architecture [hn : Printable name] [hd : Printable decls] [hs : Printable stmts] :
    Printable (UnitBody.architecture name decls declTail stmts) :=
  ⟨hn.words, hd.words, hs.words⟩

instance printable_package [hg : Printable generics] [hd : Printable decls] :
    Printable (UnitBody.package generics decls) := ⟨hg.words, hd.words⟩

instance printable_packageBody [hd : Printable decls] : Printable (UnitBody.packageBody decls) :=
  ⟨hd.words⟩

instance printable_designUnit {context : List ContextItem} {body : UnitBody}
    [hc : Printable context] [hn : Printable name] [hb : Printable body] [he : Printable endLabel] :
    Printable (DesignUnit.mk t context name body endLabel tail) :=
  ⟨⟨hc.words, hn.words, hb.words, he.words⟩⟩

instance printable_designFile {units : List DesignUnit} [h : Printable units] :
    Printable (DesignFile.mk units tail) := ⟨h.words⟩

end

end VhdlStyle
