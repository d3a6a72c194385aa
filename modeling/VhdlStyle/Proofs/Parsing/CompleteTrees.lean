import VhdlStyle.Proofs.Parsing.CompleteExprs

/-! # Statements and declarations without gaps

An action that leaves a gap in a statement or a declaration reports an error where it does so. What
nests is read by a parameter, so each level follows from the one inside it. -/

namespace VhdlStyle

open Parse

set_option synthInstance.maxSize 2000

/-! ## Sequential statements -/

theorem Head.gives_finish (h : Head) : Gives h.finish fun g => g.label = h.label := by
  unfold Head.finish
  exact .next fun _ => .next fun text => .pure rfl

namespace CondWaveform

theorem gives_parseElement : Gives parseElement Expr.Complete := by
  unfold parseElement
  refine .bind Expr.gives_parse fun x => .accept? (by decide) (fun t => ?_) (.pure id)
  exact .bind Expr.gives_parse fun y => .pure fun hy ht hx => ⟨ht, hx, hy⟩

theorem gives_parseWaveform : Gives parseWaveform (AtLeastOne Expr.Complete) := by
  unfold parseWaveform
  exact .accept? (by decide) (fun t => .pure fun ht => .single ht) (gives_sepBy gives_parseElement)

/-- Only a condition and `else` are followed by another arm. -/
theorem gives_parseArmsN (fuel : Nat) :
    Gives (parseArmsN fuel) fun arms => Guarded cond arms ∧ ∀ w ∈ arms, w.Complete := by
  induction fuel with
  | zero =>
      unfold parseArmsN
      exact .giveUp
  | succ fuel ih =>
      unfold parseArmsN
      refine .bind gives_parseWaveform fun waveform => .next fun hasCond => .ite (fun _ => ?_) ?_
      · refine .pure fun hwaveform => ⟨.single _, ?_⟩
        exact List.forall_mem_singleton.mpr ⟨hwaveform, by simp⟩
      · refine fun _ => .bind Expr.gives_parse fun x => ?_
        extract_lets arm
        have harm (hx : x.Complete) (hwaveform : AtLeastOne Expr.Complete waveform) :
            arm.Complete := ⟨hwaveform, forall_mem_some hx⟩
        refine .next fun hasElse => .ite (fun _ => ?_) fun _ => ?_
        · refine .pure fun hx hwaveform => ⟨.single _, ?_⟩
          exact List.forall_mem_singleton.mpr (harm hx hwaveform)
        · refine ih.bind fun arms => .pure fun harms hx hwaveform => ⟨.cons rfl harms.1, ?_⟩
          exact List.forall_mem_cons.mpr ⟨harm hx hwaveform, harms.2⟩

theorem gives_parseArms :
    Gives parseArms fun arms => Guarded cond arms ∧ ∀ w ∈ arms, w.Complete :=
  .sized gives_parseArmsN

end CondWaveform

theorem Assertion.gives_parse (postponed : Bool) : Gives (Assertion.parse postponed) Complete := by
  unfold Assertion.parse
  refine .next fun _ => .bind Expr.gives_parse fun cond => .next fun hasReport => ?_
  extract_lets -underBinder next
  have hnext (report : Option Expr) : Gives (next report) fun a =>
      (∀ x ∈ report, x.Complete) → cond.Complete → a.Complete := by
    refine .next fun hasSeverity => ?_
    extract_lets -underBinder last
    have hlast (severity : Option Expr) : Gives (last severity) fun a =>
        (∀ x ∈ severity, x.Complete) → (∀ x ∈ report, x.Complete) → cond.Complete → a.Complete :=
      .pure fun hseverity hreport hcond => ⟨hcond, hreport, hseverity⟩
    clear_value last
    exact .orNone Expr.gives_parse hlast
  clear_value next
  exact .orNone Expr.gives_parse hnext

namespace SeqStmt

theorem gives_parseLoopControl (h : Head) : Gives (parseLoopControl h) Complete := by
  unfold parseLoopControl
  refine .next fun word => .next fun loopLabel => .next fun hasCond => ?_
  extract_lets -underBinder next
  have hnext (cond : Option Expr) :
      Gives (next cond) fun s => (∀ x ∈ cond, x.Complete) → s.Complete := .next fun _ => .pure id
  clear_value next
  exact .orNone Expr.gives_parse hnext

theorem gives_parseReturn (h : Head) : Gives (parseReturn h) Complete := by
  unfold parseReturn
  refine .next fun _ => .next fun atEnd => ?_
  extract_lets -underBinder next
  have hnext (value : Option Expr) :
      Gives (next value) fun s => (∀ x ∈ value, x.Complete) → s.Complete := .next fun _ => .pure id
  clear_value next
  refine .ite (fun _ => (hnext none).mono fun s hs => hs (by simp)) fun _ => ?_
  exact .bind Expr.gives_parse fun x => (hnext (some x)).mono fun s hs hx => hs (forall_mem_some hx)

theorem gives_parseWait (h : Head) : Gives (parseWait h) Complete := by
  unfold parseWait
  refine .next fun _ => .next fun hasOn => ?_
  extract_lets -underBinder next
  have hnext (signals : List Expr) :
      Gives (next signals) fun s => (∀ x ∈ signals, x.Complete) → s.Complete := by
    refine .next fun hasUntil => ?_
    extract_lets -underBinder rest
    have hrest (cond : Option Expr) : Gives (rest cond) fun s =>
        (∀ x ∈ cond, x.Complete) → (∀ x ∈ signals, x.Complete) → s.Complete := by
      refine .next fun hasFor => ?_
      extract_lets -underBinder last
      have hlast (time : Option Expr) : Gives (last time) fun s => (∀ x ∈ time, x.Complete) →
          (∀ x ∈ cond, x.Complete) → (∀ x ∈ signals, x.Complete) → s.Complete :=
        .next fun _ => .pure fun htime hcond hsignals => ⟨hsignals, hcond, htime⟩
      clear_value last
      exact .orNone Expr.gives_parse hlast
    clear_value rest
    exact .orNone Expr.gives_parse hrest
  clear_value next
  refine .ite (fun _ => ?_) fun _ => (hnext []).mono fun s hs => hs (by simp)
  exact (gives_sepBy Expr.gives_parseName).bind fun xs => (hnext xs).mono fun s hs hxs => hs hxs.2

theorem gives_parseReport (h : Head) : Gives (parseReport h) Complete := by
  unfold parseReport
  refine .next fun _ => .bind Expr.gives_parse fun message => .next fun hasSeverity => ?_
  extract_lets -underBinder next
  have hnext (severity : Option Expr) : Gives (next severity) fun s =>
      (∀ x ∈ severity, x.Complete) → message.Complete → s.Complete :=
    .next fun _ => .pure fun hseverity hmessage => ⟨hmessage, hseverity⟩
  clear_value next
  exact .orNone Expr.gives_parse hnext

theorem gives_parseNamed (h : Head) : Gives (parseNamed h) fun o => ∀ s ∈ o, s.Complete := by
  unfold parseNamed
  refine .next fun isName => .ite (fun _ => .faultGot) fun _ => ?_
  refine .bind Expr.gives_parseName fun target => .next fun isSignal => .ite (fun _ => ?_) ?_
  · refine .bind CondWaveform.gives_parseArms fun arms => .next fun _ => ?_
    exact .pure fun harms htarget => forall_mem_some ⟨htarget, harms⟩
  · refine fun _ => .next fun isVariable => .ite (fun _ => ?_) fun _ => ?_
    · refine .bind Expr.gives_parse fun value => .next fun _ => ?_
      exact .pure fun hvalue htarget => forall_mem_some ⟨htarget, hvalue⟩
    · exact .next fun _ => .pure fun htarget => forall_mem_some htarget

theorem gives_parseScheme : Gives parseScheme LoopScheme.Complete := by
  unfold parseScheme
  refine .next fun isFor => .ite (fun _ => ?_) fun _ => ?_
  · refine .bind gives_ident fun param => .next fun _ => ?_
    exact .bind Expr.gives_parseRange fun range => .pure fun hrange hparam => ⟨hparam, hrange⟩
  · refine .next fun isWhile => .ite (fun _ => ?_) fun _ => .pure trivial
    exact .bind Expr.gives_parse fun cond => .pure id

section

variable {block : Parse (List SeqStmt)} (hblock : Gives block fun ss => ∀ s ∈ ss, s.Complete)

include hblock

theorem gives_parseBranch (cond : Option Expr) : Gives (parseBranch block cond) fun b =>
    (∀ x ∈ cond, x.Complete) → b.Complete ∧ b.cond = cond := by
  unfold parseBranch
  refine hblock.bind fun ss => .next fun _ => .pure fun hss hcond => ⟨⟨hcond, ?_⟩, rfl⟩
  exact allComplete_iff.mpr hss

theorem gives_parseCondBranch :
    Gives (parseCondBranch block) fun b => b.Complete ∧ b.cond.isSome = true := by
  unfold parseCondBranch
  refine .bind Expr.gives_parse fun cond => .next fun _ => ?_
  refine (gives_parseBranch hblock (some cond)).mono fun b hb hcond => ?_
  obtain ⟨hcomplete, heq⟩ := hb (forall_mem_some hcond)
  exact ⟨hcomplete, by rw [heq]; rfl⟩

/-- Only the branch behind `else` has no condition. -/
theorem gives_parseIf (h : Head) : Gives (parseIf block h) Complete := by
  have hbranch := gives_parseCondBranch hblock
  unfold parseIf
  refine .next fun _ => hbranch.bind fun first => ?_
  refine (Gives.sized (gives_afterEachN hbranch)).bind fun others => .next fun hasElse => ?_
  extract_lets -underBinder next
  have hnext (last : List IfBranch) (hlast : last.length ≤ 1) : Gives (next last) fun s =>
      (∀ b ∈ last, b.Complete) → (∀ b ∈ others, b.Complete ∧ b.cond.isSome = true) →
        first.Complete ∧ first.cond.isSome = true → s.Complete := by
    refine .next fun endLabel => .next fun text => .pure fun hcomplete hothers hfirst => ?_
    obtain ⟨hguarded, hall⟩ := Guarded.arms hfirst hothers hlast hcomplete
    exact ⟨hguarded, IfBranch.allComplete_iff.mpr hall⟩
  clear_value next
  refine .ite (fun _ => ?_) fun _ => (hnext [] (by simp)).mono fun s hs => hs (by simp)
  refine (gives_parseBranch hblock none).bind fun last => (hnext [last] (by simp)).mono ?_
  exact fun s hs hlast => hs (by simpa using (hlast (by simp)).1)

theorem gives_parseAlt : Gives (parseAlt block) CaseAlt.Complete := by
  unfold parseAlt
  refine .next fun _ => .next fun _ => .bind Expr.gives_parseChoices fun choices => ?_
  refine .next fun _ => .next fun _ => hblock.bind fun ss => .pure fun hss hchoices => ?_
  exact ⟨hchoices, allComplete_iff.mpr hss⟩

theorem gives_parseAltsN (fuel : Nat) :
    Gives (parseAltsN block fuel) fun as => ∀ a ∈ as, a.Complete := by
  induction fuel with
  | zero =>
      unfold parseAltsN
      exact .giveUp
  | succ fuel ih =>
      unfold parseAltsN
      refine .next fun more => .ite (fun _ => .pure (by simp)) fun _ => ?_
      refine (gives_parseAlt hblock).bind fun a => ih.bind fun as => .pure fun has ha => ?_
      exact List.forall_mem_cons.mpr ⟨ha, has⟩

theorem gives_parseCase (h : Head) : Gives (parseCase block h) Complete := by
  unfold parseCase
  refine .next fun _ => .next fun matching => .bind Expr.gives_parse fun selector => ?_
  refine .next fun _ => (Gives.sized (gives_parseAltsN hblock)).bind fun alts => ?_
  refine .next fun tail => .next fun _ => .next fun _ => ?_
  extract_lets -underBinder next
  have hnext (u : PUnit) : Gives (next u) fun s =>
      (∀ a ∈ alts, a.Complete) → selector.Complete → s.Complete := by
    refine .next fun endLabel => .next fun _ => .next fun _ => .next fun text => .pure ?_
    exact fun halts hselector => ⟨hselector, CaseAlt.allComplete_iff.mpr halts⟩
  clear_value next
  exact .ite (fun _ => .next hnext) fun _ => hnext ⟨⟩

theorem gives_parseLoop (h : Head) : Gives (parseLoop block h) Complete := by
  unfold parseLoop
  refine .bind gives_parseScheme fun scheme => .next fun _ => hblock.bind fun ss => ?_
  refine .next fun tail => .next fun endLabel => .next fun text => ?_
  exact .pure fun hss hscheme => ⟨hscheme, allComplete_iff.mpr hss⟩

theorem gives_parseWith : Gives (parseWith block) fun o => ∀ s ∈ o, s.Complete := by
  unfold parseWith
  refine .next fun t => .next fun label => .next fun k => ?_
  generalize (⟨t, label⟩ : Head) = h
  split
  case h_1 => exact .mapSome (gives_parseIf hblock h)
  case h_2 => exact .mapSome (gives_parseCase hblock h)
  case h_3 | h_4 | h_5 => exact .mapSome (gives_parseLoop hblock h)
  case h_6 | h_7 => exact .mapSome (gives_parseLoopControl h)
  case h_8 => exact .mapSome (gives_parseReturn h)
  case h_9 => exact .next fun _ => .next fun _ => .pure (forall_mem_some trivial)
  case h_10 => exact .mapSome (gives_parseWait h)
  case h_11 => exact .mapSome (gives_parseReport h)
  case h_12 =>
    refine (Assertion.gives_parse false).bind fun assertion => .next fun _ => ?_
    exact .pure fun hassertion => forall_mem_some hassertion
  case h_13 => exact gives_parseNamed h

end

theorem gives_parseBlockN (n : Nat) : Gives (parseBlockN n) fun ss => ∀ s ∈ ss, s.Complete := by
  induction n with
  | zero =>
      unfold parseBlockN
      exact .giveUp
  | succ n ih =>
      unfold parseBlockN
      exact gives_many (gives_parseWith ih)

theorem gives_parseBlock : Gives parseBlock fun ss => ∀ s ∈ ss, s.Complete :=
  .sized gives_parseBlockN

end SeqStmt

/-! ## Declarations -/

theorem UseClause.gives_parse : Gives UseClause.parse Complete := by
  unfold UseClause.parse
  refine .next fun _ => .next fun _ => ?_
  refine (gives_sepBy Expr.gives_parseSelectedName).bind fun names => ?_
  exact .next fun _ => .next fun _ => .pure id

namespace TypeDef

theorem gives_parseLiteral : Gives parseLiteral fun o => ∃ l ∈ o, l.Present := by
  unfold parseLiteral
  refine .accept? (by decide) (fun t => .pure fun ht => ⟨_, rfl, ht⟩) ?_
  refine .bind gives_ident? fun o => .pure ?_
  rintro ⟨name, rfl, hname⟩
  exact ⟨_, rfl, by simp, hname⟩

theorem gives_parseUnit : Gives parseUnit fun o => ∀ u ∈ o, u.Complete := by
  unfold parseUnit
  refine .next fun t => .bind gives_ident fun name => .next fun hasValue => ?_
  extract_lets -underBinder next
  have hnext (value : Option Expr) : Gives (next value) fun o =>
      (∀ x ∈ value, x.Complete) → name ≠ [] → ∀ u ∈ o, u.Complete :=
    .next fun _ => .next fun _ => .pure fun hvalue hname => forall_mem_some ⟨hname, hvalue⟩
  clear_value next
  exact .orNone Expr.gives_parse hnext

theorem gives_parseUnits : Gives parseUnits fun us => ∀ u ∈ us, u.Complete := by
  unfold parseUnits
  refine .next fun hasUnits => .ite (fun _ => .pure (by simp)) fun _ => ?_
  refine (gives_many gives_parseUnit).bind fun us => ?_
  exact .next fun _ => .next fun _ => .next fun _ => .pure id

theorem gives_parseField : Gives parseField fun o => ∀ f ∈ o, f.Complete := by
  unfold parseField
  refine .next fun t => .bind gives_identList fun names => .next fun _ => ?_
  refine .bind SubtypeIndication.gives_parse fun indication => .next fun _ => .next fun _ => ?_
  exact .pure fun hindication hnames => forall_mem_some ⟨hnames, hindication⟩

theorem gives_parse : Gives TypeDef.parse fun o => ∀ d ∈ o, d.Complete := by
  unfold TypeDef.parse
  refine .next fun k => ?_
  split
  case h_1 =>
    refine .next fun _ => (gives_sepBySome gives_parseLiteral).bind fun literals => ?_
    exact .next fun _ => .pure fun h => forall_mem_some h
  case h_2 =>
    refine .next fun _ => .bind Expr.gives_parseRange fun r => .bind gives_parseUnits fun us => ?_
    exact .pure fun hus hr => forall_mem_some ⟨hr, hus⟩
  case h_3 =>
    refine .next fun _ => .next fun _ => (gives_sepBy Expr.gives_parseRange).bind fun indexes => ?_
    refine .next fun _ => .next fun _ => .bind SubtypeIndication.gives_parse fun element => ?_
    exact .pure fun helement hindexes => forall_mem_some ⟨hindexes, helement⟩
  case h_4 =>
    refine .next fun _ => (gives_many gives_parseField).bind fun fields => .next fun tail => ?_
    exact .next fun _ => .next fun _ => .next fun _ => .pure fun h => forall_mem_some h
  case h_5 =>
    refine .next fun _ => .bind SubtypeIndication.gives_parse fun target => ?_
    exact .pure fun h => forall_mem_some h
  case h_6 => exact .faultGot

end TypeDef

theorem SubprogramSpec.gives_parse : Gives SubprogramSpec.parse Complete := by
  unfold SubprogramSpec.parse
  refine .next fun hasPurity => ?_
  extract_lets -underBinder next
  -- every part of the header is read or left out, and what follows is the same for both
  have hnext (purity : Bytes) : Gives (next purity) Complete := by
    unfold next
    extract_lets +onlyGivenNames named
    have hnamed (kind : Bytes) : Gives (named kind) fun s => kind ≠ [] → s.Complete := by
      unfold named
      rw [isAt_eq_isAtAny]
      extract_lets +onlyGivenNames rest
      have hrest (name : Bytes) :
          Gives (rest name) fun s => name ≠ [] → kind ≠ [] → s.Complete := by
        refine .next fun _ => .next fun hasParams => ?_
        extract_lets -underBinder last
        have hlast (parts : List InterfaceItem × List Comment) : Gives (last parts) fun s =>
            (∀ i ∈ parts.1, i.Complete) → name ≠ [] → kind ≠ [] → s.Complete := by
          refine .next fun hasResult => .orNone Expr.gives_parseTypeMark fun result => .pure ?_
          exact fun hresult hparams hname hkind => ⟨hkind, hname, hparams, hresult⟩
        clear_value last
        refine .ite (fun _ => ?_) fun _ => (hlast ([], [])).mono fun s hs => hs (by simp)
        refine (gives_rows InterfaceItem.gives_parsePort InterfaceItem.complete_setInline).bind ?_
        exact fun params => .next fun tail => .next fun _ => hlast (params, tail)
      clear_value rest
      refine .token rfl (by decide) (fun t => ?_) (.bind gives_ident hrest)
      exact (hrest t.text).mono fun s hs ht => hs ht.text
    have hbuilt (kind : Bytes) : Built true (named kind) := (hnamed kind).built
    clear_value named
    refine .token rfl (by decide) (fun t => ?_) .fault
    exact (hnamed t.text).mono fun s hs ht => hs ht.text
  clear_value next
  exact .ite (fun _ => .next fun _ => .next hnext) fun _ => .next hnext

namespace Decl

theorem gives_parseObject (t : RowTrivia) : Gives (parseObject t) Complete := by
  unfold parseObject
  refine .next fun word => .bind gives_identList fun names => .next fun _ => ?_
  refine .bind SubtypeIndication.gives_parse fun indication => ?_
  refine .bind gives_parseDefault fun value => ?_
  refine .next fun _ => .next fun _ => .pure fun hvalue hindication hnames => ?_
  exact ⟨hnames, hindication, hvalue⟩

theorem gives_parseType (t : RowTrivia) : Gives (parseType t) Complete := by
  unfold parseType
  refine .next fun _ => .bind gives_ident fun name => .next fun hasDefinition => ?_
  extract_lets -underBinder next
  have hnext (definition : Option TypeDef) : Gives (next definition) fun d =>
      (∀ x ∈ definition, x.Complete) → name ≠ [] → d.Complete :=
    .next fun _ => .next fun _ => .pure fun hdefinition hname => ⟨hname, hdefinition⟩
  clear_value next
  refine .ite (fun _ => .bind TypeDef.gives_parse hnext) fun _ => (hnext none).mono fun d hd => ?_
  exact hd (by simp)

theorem gives_parseSubtype (t : RowTrivia) : Gives (parseSubtype t) Complete := by
  unfold parseSubtype
  refine .next fun _ => .bind gives_ident fun name => .next fun _ => ?_
  refine .bind SubtypeIndication.gives_parse fun indication => .next fun _ => .next fun _ => ?_
  exact .pure fun hindication hname => ⟨hname, hindication⟩

theorem gives_parseAlias (t : RowTrivia) : Gives (parseAlias t) Complete := by
  unfold parseAlias
  refine .next fun _ => .bind gives_ident fun name => .next fun hasIndication => ?_
  extract_lets -underBinder next
  have hnext (indication : Option SubtypeIndication) : Gives (next indication) fun d =>
      (∀ i ∈ indication, i.Complete) → name ≠ [] → d.Complete := by
    refine .next fun _ => .bind Expr.gives_parseName fun target => .next fun _ => .next fun _ => ?_
    exact .pure fun htarget hindication hname => ⟨hname, hindication, htarget⟩
  clear_value next
  exact .orNone SubtypeIndication.gives_parse hnext

theorem gives_parseComponent (t : RowTrivia) : Gives (parseComponent t) Complete := by
  unfold parseComponent
  refine .next fun _ => .bind gives_ident fun name => .next fun _ => ?_
  refine .bind InterfaceList.gives_parseGenerics fun generics => ?_
  refine .bind InterfaceList.gives_parsePorts fun ports => ?_
  refine .next fun tail => .next fun _ => .next fun _ => ?_
  exact .pure fun hports hgenerics hname => ⟨hname, hgenerics, hports⟩

theorem gives_parseAttribute (t : RowTrivia) : Gives (parseAttribute t) Complete := by
  unfold parseAttribute
  refine .next fun _ => .bind gives_ident fun name => .next fun _ => ?_
  refine .bind Expr.gives_parseTypeMark fun mark => .next fun _ => .next fun _ => ?_
  exact .pure fun hmark hname => ⟨hname, hmark⟩

theorem gives_parseEntity : Gives parseEntity Expr.Complete := by
  unfold parseEntity
  exact .token rfl (by decide) (fun t => .pure id) Expr.gives_parseSelectedName

theorem gives_parseAttributeSpec (t : RowTrivia) : Gives (parseAttributeSpec t) Complete := by
  unfold parseAttributeSpec
  refine .next fun _ => .bind gives_ident fun name => .next fun _ => ?_
  refine (gives_sepBy gives_parseEntity).bind fun entities => .next fun _ => .next fun word => ?_
  extract_lets -underBinder next
  have hnext (entityClass : Bytes) : Gives (next entityClass) fun d =>
      AtLeastOne Expr.Complete entities → name ≠ [] → d.Complete := by
    refine .next fun _ => .bind Expr.gives_parse fun value => .next fun _ => .next fun _ => ?_
    exact .pure fun hvalue hentities hname => ⟨hname, hentities, hvalue⟩
  have hbuilt (entityClass : Bytes) : Built true (next entityClass) := (hnext entityClass).built
  clear_value next
  exact .ite (fun _ => .next fun _ => .next hnext) fun _ => .faultGot

theorem gives_parseRaw (t : RowTrivia) : Gives (parseRaw t) Complete := by
  have htokens : Built true (fun s => parseRawN s.size 0 s) :=
    built_sized (f := fun n => parseRawN n 0)
  unfold parseRaw
  exact .next fun tokens => .next fun _ => .next fun _ => .pure trivial

theorem gives_parseTypeOrRaw : Gives parseTypeOrRaw fun o => ∀ d ∈ o, d.Complete := by
  unfold parseTypeOrRaw
  refine .next fun k => ?_
  split
  case h_1 => exact .next fun t => .mapSome (gives_parseRaw t)
  case h_2 => exact .fault
  case h_3 => exact .next fun t => .mapSome (gives_parseType t)

section

variable {part : Parse (List Decl)} (hpart : Gives part fun ds => ∀ d ∈ ds, d.Complete)

include hpart

theorem gives_parseSubprogram (t : RowTrivia) : Gives (parseSubprogram part t) Complete := by
  unfold parseSubprogram
  refine .bind SubprogramSpec.gives_parse fun spec => .next fun hasBody => .ite ?_ fun _ => ?_
  · exact fun _ => .next fun _ => .next fun _ => .pure id
  · refine hpart.bind fun ds => .next fun declTail => .next fun _ => ?_
    refine .bind SeqStmt.gives_parseBlock fun ss => ?_
    refine .next fun tail => .next fun _ => .next fun atWord => ?_
    extract_lets -underBinder next
    have hnext (u : PUnit) : Gives (next u) fun d =>
        (∀ s ∈ ss, s.Complete) → (∀ d ∈ ds, d.Complete) → spec.Complete → d.Complete := by
      refine .next fun hasLabel => ?_
      extract_lets -underBinder last
      have hlast (endLabel : Bytes) : Gives (last endLabel) fun d =>
          (∀ s ∈ ss, s.Complete) → (∀ d ∈ ds, d.Complete) → spec.Complete → d.Complete := by
        refine .next fun _ => .next fun _ => .next fun _ => .pure fun hss hds hspec => ?_
        exact ⟨hspec, allComplete_iff.mpr hds, hss⟩
      clear_value last
      exact .ite (fun _ => .next fun _ => .next hlast) fun _ => .next hlast
    clear_value next
    exact .ite (fun _ => .next hnext) fun _ => hnext ⟨⟩

theorem gives_parseWith : Gives (parseWith part) fun o => ∀ d ∈ o, d.Complete := by
  have hsome {p : RowTrivia → Parse Decl} (hp : ∀ t, Gives (p t) Complete) :
      Gives (rowTrivia >>= fun t => some <$> p t) fun o => ∀ d ∈ o, d.Complete :=
    .next fun t => .mapSome (hp t)
  unfold parseWith
  refine .next fun k => ?_
  split
  case h_1 | h_2 | h_3 | h_4 => exact hsome gives_parseObject
  case h_5 => exact gives_parseTypeOrRaw
  case h_6 => exact hsome gives_parseSubtype
  case h_7 => exact hsome gives_parseAlias
  case h_8 => exact hsome gives_parseComponent
  case h_9 =>
    refine .next fun ahead => .ite (fun _ => hsome gives_parseAttribute) fun _ => ?_
    exact hsome gives_parseAttributeSpec
  case h_10 | h_11 | h_12 | h_13 => exact hsome (gives_parseSubprogram hpart)
  case h_14 => exact .bind UseClause.gives_parse fun clause => .pure fun h => forall_mem_some h
  case h_15 | h_16 | h_17 | h_18 => exact hsome gives_parseRaw
  case h_19 => exact .faultGot

end

theorem gives_parsePartN (n : Nat) : Gives (parsePartN n) fun ds => ∀ d ∈ ds, d.Complete := by
  induction n with
  | zero =>
      unfold parsePartN
      exact .giveUp
  | succ n ih =>
      unfold parsePartN
      exact gives_many (gives_parseWith ih)

theorem gives_parsePart : Gives parsePart fun ds => ∀ d ∈ ds, d.Complete := .sized gives_parsePartN

end Decl

end VhdlStyle
