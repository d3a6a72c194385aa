import VhdlStyle.Proofs.Parsing.Gives

/-! # Expressions and lists without gaps

Where an expression, a subtype or a row of an interface list cannot be read, an error is reported,
so that without errors nothing of it is missing. -/

namespace VhdlStyle

open Parse

set_option synthInstance.maxSize 2000

/-! ## Names without arguments -/

namespace Expr

theorem gives_parseAttributeName : Gives parseAttributeName Leaf.Present := by
  unfold parseAttributeName
  refine Gives.current.bind fun t => .ite (fun ht => ?_) fun _ => .faultGot
  refine .next fun _ => .pure fun hwhole => ?_
  refine hwhole.present ?_
  rintro heof
  rw [Token.isIdent, Token.isKeyword, heof] at ht
  exact absurd ht (by decide)

theorem gives_parseSelectionsN (fuel : Nat) (x : Expr) :
    Gives (parseSelectionsN fuel x) fun y => x.Complete → y.Complete := by
  induction fuel generalizing x with
  | zero =>
      unfold parseSelectionsN
      exact .giveUp
  | succ fuel ih =>
      unfold parseSelectionsN
      refine .next fun more => .ite (fun _ => .pure id) fun _ => Gives.current.bind fun t => ?_
      refine .ite (fun _ => .faultGot) fun ht => .next fun _ => (ih _).mono fun y hy hwhole hx => ?_
      refine hy ⟨hx, hwhole.present ?_⟩
      rintro heof
      simp [Token.isAny, heof] at ht

theorem gives_parseSelectedName : Gives parseSelectedName Complete := by
  unfold parseSelectedName
  refine .bind gives_ident fun name => (Gives.sized fun n => gives_parseSelectionsN n _).mono ?_
  exact fun y hy hname => hy ⟨by simp, hname⟩

theorem gives_parseMarkAttributesN (fuel : Nat) (x : Expr) :
    Gives (parseMarkAttributesN fuel x) fun y => x.Complete → y.Complete := by
  induction fuel generalizing x with
  | zero =>
      unfold parseMarkAttributesN
      exact .giveUp
  | succ fuel ih =>
      unfold parseMarkAttributesN
      refine .next fun atTick => .next fun ahead => .ite (fun _ => ?_) fun _ => .pure id
      refine .next fun _ => .bind gives_parseAttributeName fun name => (ih _).mono ?_
      exact fun y hy hname hx => hy ⟨hx, hname⟩

theorem gives_parseTypeMark : Gives parseTypeMark Complete := by
  unfold parseTypeMark
  refine .bind gives_parseSelectedName fun x => ?_
  exact .sized fun n => gives_parseMarkAttributesN n x

/-! ## Operators -/

theorem gives_parseAllocatorsN (fuel : Nat) :
    Gives (parseAllocatorsN fuel) fun ls => ∀ l ∈ ls, l.Present := by
  induction fuel with
  | zero =>
      unfold parseAllocatorsN
      exact .giveUp
  | succ fuel ih =>
      unfold parseAllocatorsN
      refine .accept? (by decide) (fun t => ?_) (.pure (by simp))
      exact ih.bind fun ls => .pure fun hls ht => List.forall_mem_cons.mpr ⟨ht, hls⟩

theorem complete_foldr_unary {ls : List Leaf} {x : Expr} (hls : ∀ l ∈ ls, l.Present)
    (hx : x.Complete) : (ls.foldr unary x).Complete := by
  induction ls with
  | nil => exact hx
  | cons l rest ih =>
      rw [List.forall_mem_cons] at hls
      exact ⟨hls.1, ih hls.2⟩

section

variable {ops : List Kind} (hops : .eof ∉ ops) {operand : Parse Expr}
  (hoperand : Gives operand Complete)

include hops hoperand

theorem gives_parseChainN (fuel : Nat) (x : Expr) :
    Gives (parseChainN ops operand fuel x) fun y => x.Complete → y.Complete := by
  induction fuel generalizing x with
  | zero =>
      unfold parseChainN
      exact .giveUp
  | succ fuel ih =>
      unfold parseChainN
      refine .token rfl hops (fun op => hoperand.bind fun z => ?_) (.pure id)
      exact (ih _).mono fun y hy hz hop hx => hy ⟨hop, hx, hz⟩

theorem gives_parseChain (x : Expr) :
    Gives (parseChain ops operand x) fun y => x.Complete → y.Complete :=
  .sized fun n => gives_parseChainN hops hoperand n x

theorem gives_parsePair : Gives (parsePair ops operand) Complete := by
  unfold parsePair
  refine hoperand.bind fun x => .token rfl hops (fun op => ?_) (.pure id)
  exact hoperand.bind fun y => .pure fun hy hop hx => ⟨hop, hx, hy⟩

end

/-! ## One level of nesting -/

section

variable {nested : Parse Expr} (hnested : Gives nested Complete)

include hnested

theorem gives_parseAssoc : Gives (parseAssoc nested) Assoc.Complete := by
  unfold parseAssoc
  refine hnested.bind fun x => .next fun hasChoices => .ite (fun _ => ?_) fun _ => ?_
  · exact .pure fun hx => ⟨trivial, hx⟩
  · refine (Gives.sized (gives_afterEachN hnested)).bind fun more => .next fun _ => ?_
    refine hnested.bind fun y => .pure fun hy hmore hx => ⟨⟨hx, ?_⟩, hy⟩
    exact allComplete_iff.mpr hmore

theorem gives_parseArgsN (fuel : Nat) :
    Gives (parseArgsN nested fuel) fun as => ∀ a ∈ as, a.Complete := by
  induction fuel with
  | zero =>
      unfold parseArgsN
      exact .giveUp
  | succ fuel ih =>
      unfold parseArgsN
      refine .next fun atEnd => .ite (fun _ => .pure (by simp)) fun _ => ?_
      refine (gives_parseAssoc hnested).bind fun a => .next fun more => .ite ?_ ?_
      · exact fun _ => .pure fun ha => List.forall_mem_singleton.mpr ha
      · intro _
        exact ih.bind fun as => .pure fun has ha => List.forall_mem_cons.mpr ⟨ha, has⟩

theorem gives_parseArgs : Gives (parseArgs nested) fun as => ∀ a ∈ as, a.Complete := by
  unfold parseArgs
  refine .next fun _ => (Gives.sized (gives_parseArgsN hnested)).bind fun as => ?_
  exact .next fun _ => .pure id

theorem gives_parseParenOrAggregate : Gives (parseParenOrAggregate nested) Complete := by
  unfold parseParenOrAggregate
  refine (gives_parseArgs hnested).bind fun as => ?_
  split
  · exact .pure fun h => (h _ List.mem_cons_self).2
  · exact .pure Assoc.allComplete_iff.mpr

theorem gives_parseSuffixesN (fuel : Nat) (x : Expr) :
    Gives (parseSuffixesN nested fuel x) fun y => x.Complete → y.Complete := by
  induction fuel generalizing x with
  | zero =>
      unfold parseSuffixesN
      exact .giveUp
  | succ fuel ih =>
      unfold parseSuffixesN
      refine .next fun k => ?_
      split
      case h_1 =>
        refine .next fun _ => Gives.current.bind fun t => .ite (fun _ => .faultGot) fun ht => ?_
        refine .next fun _ => (ih _).mono fun y hy hwhole hx => hy ⟨hx, hwhole.present ?_⟩
        rintro heof
        simp [Token.isAny, heof] at ht
      case h_2 =>
        refine (gives_parseArgs hnested).bind fun as => (ih _).mono fun y hy has hx => ?_
        exact hy ⟨hx, Assoc.allComplete_iff.mpr has⟩
      case h_3 =>
        refine .next fun ahead => .ite (fun _ => .next fun _ => ?_) fun _ => .next fun _ => ?_
        · refine (gives_parseParenOrAggregate hnested).bind fun z => (ih _).mono ?_
          exact fun y hy hz hx => hy ⟨hx, hz⟩
        · refine .bind gives_parseAttributeName fun name => (ih _).mono fun y hy hname hx => ?_
          exact hy ⟨hx, hname⟩
      case h_4 => exact .pure id

theorem gives_parseSuffixes (x : Expr) :
    Gives (parseSuffixes nested x) fun y => x.Complete → y.Complete :=
  .sized fun n => gives_parseSuffixesN hnested n x

theorem gives_parseNameWith : Gives (parseNameWith nested) Complete := by
  unfold parseNameWith
  refine .next fun atParen => .ite (fun _ => gives_parseParenOrAggregate hnested) fun _ => ?_
  exact .token rfl (by decide) (fun t => gives_parseSuffixes hnested _) .faultGot

theorem gives_parseOperand : Gives (parseOperand nested) Complete := by
  unfold parseOperand
  refine Gives.current.bind fun t => ?_
  have hpresent {k : Kind} (hk : t.kind = k) (heof : k ≠ .eof) (hwhole : t.Whole) :
      (leafOf t).Present := hwhole.present (hk ▸ heof)
  split
  case h_1 hk | h_2 hk | h_3 hk =>
    refine .next fun _ => (gives_parseSuffixes hnested _).mono fun x hx hwhole => ?_
    exact hx (hpresent hk (by decide) hwhole)
  case h_4 hk | h_5 hk =>
    refine .next fun _ => .accept? (by decide) (fun unit => .pure fun _ hwhole => ?_) (.pure ?_)
    · have hnumber := (hpresent hk (by decide) hwhole).text
      exact ⟨hwhole.kind, List.append_ne_nil_of_left_ne_nil hnumber _⟩
    · exact hpresent hk (by decide)
  case h_6 hk | h_7 hk | h_8 hk | h_9 hk | h_10 hk | h_11 hk | h_12 hk =>
    exact .next fun _ => .pure (hpresent hk (by decide))
  case h_13 => exact (gives_parseParenOrAggregate hnested).mono fun x hx _ => hx
  case h_14 => exact .faultGot

theorem gives_parsePrimary : Gives (parsePrimary nested) Complete := by
  unfold parsePrimary
  refine (Gives.sized gives_parseAllocatorsN).bind fun ls => ?_
  exact (gives_parseOperand hnested).bind fun x => .pure fun hx hls => complete_foldr_unary hls hx

theorem gives_parseFactor : Gives (parseFactor nested) Complete := by
  have hprimary := gives_parsePrimary hnested
  unfold parseFactor
  refine .token rfl (by decide) (fun op => ?_) (gives_parsePair (by decide) hprimary)
  exact hprimary.bind fun x => .pure fun hx hop => ⟨hop, hx⟩

theorem gives_parseTerm : Gives (parseTerm nested) Complete := by
  have hfactor := gives_parseFactor hnested
  unfold parseTerm
  exact hfactor.bind fun x => gives_parseChain (by decide) hfactor x

theorem gives_parseAdding : Gives (parseAdding nested) Complete := by
  have hterm := gives_parseTerm hnested
  unfold parseAdding
  refine .token rfl (by decide) (fun op => ?_) ?_
  · refine hterm.bind fun x => (gives_parseChain (by decide) hterm _).mono fun y hy hx hop => ?_
    exact hy ⟨hop, hx⟩
  · exact hterm.bind fun x => gives_parseChain (by decide) hterm x

theorem gives_parseRelation : Gives (parseRelation nested) Complete :=
  gives_parsePair (by decide) (gives_parsePair (by decide) (gives_parseAdding hnested))

theorem gives_parseExprWith : Gives (parseExprWith nested) Complete := by
  have hrelation := gives_parseRelation hnested
  unfold parseExprWith
  exact hrelation.bind fun x => gives_parseChain (by decide) hrelation x

theorem gives_parseRangeWith : Gives (parseRangeWith nested) Complete := by
  have hexpr := gives_parseExprWith hnested
  unfold parseRangeWith
  refine hexpr.bind fun x => .token rfl (by decide) (fun dir => ?_) ?_
  · exact hexpr.bind fun y => .pure fun hy hdir hx => ⟨hdir, hx, hy⟩
  · rw [isAt_eq_isAtAny]
    refine .token rfl (by decide) (fun word => .accept? (by decide) (fun box => ?_) ?_) (.pure id)
    · exact .pure fun hbox hword hx => ⟨hword, hx, hbox⟩
    · exact hnested.bind fun y => .pure fun hy hword hx => ⟨hword, hx, hy⟩

end

/-! ## All levels -/

theorem gives_parseRangeN (n : Nat) : Gives (parseRangeN n) Complete := by
  induction n with
  | zero =>
      unfold parseRangeN
      exact .giveUp
  | succ n ih =>
      unfold parseRangeN
      exact gives_parseRangeWith ih

theorem gives_parseRange : Gives parseRange Complete := .sized fun n => gives_parseRangeN (n + 1)

theorem gives_parse : Gives Expr.parse Complete :=
  .sized fun n => gives_parseExprWith (gives_parseRangeN n)

theorem gives_parseName : Gives parseName Complete :=
  .sized fun n => gives_parseNameWith (gives_parseRangeN n)

theorem gives_parseAssociation : Gives parseAssociation Assoc.Complete :=
  gives_parseAssoc gives_parseRange

theorem gives_parseChoices : Gives parseChoices (AtLeastOne Complete) :=
  gives_sepBy gives_parseRange

end Expr

/-! ## Subtypes and lists -/

theorem Constraint.gives_parseIndex : Gives Constraint.parseIndex Constraint.Complete := by
  unfold Constraint.parseIndex
  refine .next fun _ => (gives_sepBy Expr.gives_parseRange).bind fun ranges => ?_
  exact .next fun _ => .pure id

theorem SubtypeIndication.gives_parse :
    Gives SubtypeIndication.parse SubtypeIndication.Complete := by
  unfold SubtypeIndication.parse
  refine .bind Expr.gives_parseTypeMark fun first => .next fun hasMore => ?_
  -- what follows the marks is read in the same way behind one and behind two
  extract_lets -underBinder next
  have hnext (marks : Option Expr × Expr) : Gives (next marks) fun s =>
      (∀ x ∈ marks.1, x.Complete) → marks.2.Complete → s.Complete := by
    refine .next fun k => ?_
    split
    case h_1 =>
      refine .bind Constraint.gives_parseIndex fun c => .pure fun hc hresolution hmark => ?_
      exact ⟨hresolution, hmark, forall_mem_some hc⟩
    case h_2 =>
      refine .next fun _ => .bind Expr.gives_parseRange fun r => ?_
      exact .pure fun hr hresolution hmark => ⟨hresolution, hmark, forall_mem_some hr⟩
    case h_3 => exact .pure fun hresolution hmark => ⟨hresolution, hmark, by simp⟩
  clear_value next
  refine .ite (fun _ => ?_) fun _ => (hnext _).mono fun s hs hfirst => hs (by simp) hfirst
  refine .bind Expr.gives_parseTypeMark fun mark => (hnext _).mono fun s hs hmark hfirst => ?_
  exact hs (forall_mem_some hfirst) hmark

theorem gives_parseDefault : Gives parseDefault fun o => ∀ x ∈ o, x.Complete := by
  unfold parseDefault
  exact .next fun hasDefault => .orNone Expr.gives_parse fun o => .pure id

namespace InterfaceItem

theorem complete_setInline (i : InterfaceItem) (text : Bytes) (h : i.Complete) :
    (i.setInline text).Complete := ⟨h.names, h.indication, h.default⟩

theorem gives_parseGeneric (t : RowTrivia) : Gives (parseGeneric t) Complete := by
  unfold parseGeneric
  refine .next fun _ => .bind gives_identList fun names => .next fun _ => .next fun _ => ?_
  refine .bind SubtypeIndication.gives_parse fun indication => ?_
  refine .bind gives_parseDefault fun value => .pure fun hvalue hindication hnames => ?_
  exact ⟨hnames, hindication, hvalue⟩

theorem gives_parsePort (t : RowTrivia) : Gives (parsePort t) Complete := by
  unfold parsePort
  refine .next fun hasClass => ?_
  extract_lets -underBinder next
  have hnext (objectClass : Bytes) : Gives (next objectClass) Complete := by
    refine .bind gives_identList fun names => .next fun _ => .next fun hasMode => ?_
    extract_lets -underBinder next
    have hnext (mode : Bytes) : Gives (next mode) fun i => Named names → i.Complete := by
      refine .bind SubtypeIndication.gives_parse fun indication => .next fun _ => ?_
      refine .bind gives_parseDefault fun value => .pure fun hvalue hindication hnames => ?_
      exact ⟨hnames, hindication, hvalue⟩
    clear_value next
    exact .ite (fun _ => .next fun _ => .next hnext) fun _ => .next hnext
  clear_value next
  exact .ite (fun _ => .next fun _ => .next hnext) fun _ => .next hnext

end InterfaceItem

namespace InterfaceList

theorem gives_parseClause (word : Bytes) {row : RowTrivia → Parse InterfaceItem}
    (hrow : ∀ t, Gives (row t) InterfaceItem.Complete) : Gives (parseClause word row) Complete := by
  unfold parseClause
  refine .next fun _ => .next fun _ => ?_
  refine (gives_rows hrow InterfaceItem.complete_setInline).bind fun items => ?_
  exact .next fun _ => .next fun _ => .next fun _ => .pure id

theorem gives_parseGenerics : Gives parseGenerics fun o => ∀ l ∈ o, l.Complete := by
  unfold parseGenerics
  refine .next fun atGeneric => .orNone ?_ fun o => .pure id
  exact gives_parseClause _ InterfaceItem.gives_parseGeneric

theorem gives_parsePorts : Gives parsePorts fun o => ∀ l ∈ o, l.Complete := by
  unfold parsePorts
  refine .next fun atPort => .orNone ?_ fun o => .pure id
  exact gives_parseClause _ InterfaceItem.gives_parsePort

end InterfaceList

namespace MapList

theorem gives_parseItem (t : RowTrivia) : Gives (parseItem t) MapItem.Complete := by
  unfold parseItem
  exact .bind Expr.gives_parseAssociation fun a => .pure id

theorem gives_parse : Gives MapList.parse Complete := by
  unfold MapList.parse
  refine .next fun _ => .next fun _ => .next fun _ => ?_
  refine (gives_rows gives_parseItem ?_).bind fun items => ?_
  · exact fun m text hm => hm
  · exact .next fun _ => .next fun _ => .pure id

end MapList

end VhdlStyle
