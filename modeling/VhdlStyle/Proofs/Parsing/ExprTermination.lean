import VhdlStyle.Proofs.Parsing.Bounds

/-! # No loop of the expression parser gives up

Expressions, subtypes, interface lists and maps. An action with a parameter for what nests inside it
may start with one token more than the parameter, because it takes a token before it descends. -/

namespace VhdlStyle

open Parse

set_option synthInstance.maxSize 2000

namespace Parse

section

variable {n : Nat} {k : Kind} {α : Type}

instance finishes_sepByComma (item : Parse α) [Finishes n item] : Finishes n (sepBy .comma item) :=
  finishes_sepBy (by decide) item

instance finishes_sepByBar (item : Parse α) [Finishes n item] : Finishes n (sepBy .bar item) :=
  finishes_sepBy (by decide) item

instance finishes_rowsSemicolon (row : RowTrivia → Parse α) (setInline : α → Bytes → α)
    [∀ t, Finishes n (row t)] : Finishes n (rows .semicolon row setInline) :=
  finishes_rows (by decide) row setInline

instance finishes_rowsComma (row : RowTrivia → Parse α) (setInline : α → Bytes → α)
    [∀ t, Finishes n (row t)] : Finishes n (rows .comma row setInline) :=
  finishes_rows (by decide) row setInline

end

end Parse

/-! ## Expressions -/

namespace Expr

section

variable {n : Nat}

instance finishes_parseAttributeName : Finishes n parseAttributeName := by
  rw [parseAttributeName]
  infer_instance

instance finishes_parseSelectionsN (fuel : Nat) (x : Expr) :
    Finishes fuel (parseSelectionsN fuel x) := by
  induction fuel generalizing x with
  | zero => exact .zero
  | succ fuel ih =>
      rw [parseSelectionsN]
      exact .accept (by decide) inferInstance (finishes_pure x)

instance finishes_parseSelectedName : Finishes n parseSelectedName := by
  refine finishes_ident.bind fun name => ?_
  exact .sized fun m _ => finishes_parseSelectionsN m (.ident name)

instance finishes_parseMarkAttributesN (fuel : Nat) (x : Expr) :
    Finishes fuel (parseMarkAttributesN fuel x) := by
  induction fuel generalizing x with
  | zero => exact .zero
  | succ fuel ih =>
      rw [parseMarkAttributesN]
      refine .isAt (.look (fun _ => rfl) fun next => .ite ?_ (finishes_pure x).finishesAt) ?_
      · exact ((takes_skip (by decide)).bind fun _ => inferInstance).finishesAt
      · exact (finishes_kindAhead 1).bind fun _ => finishes_pure x

instance finishes_parseTypeMark : Finishes n parseTypeMark := by
  refine finishes_parseSelectedName.bind fun x => ?_
  exact .sized fun m _ => finishes_parseMarkAttributesN m x

/-! ### One level of nesting -/

variable (nested : Parse Expr) [hnested : Finishes n nested]

instance finishes_parseAssoc : Finishes n (parseAssoc nested) := by
  have hmore : Finishes n (fun s => afterEachN .bar nested s.size s) :=
    finishes_afterEach (by decide) nested
  rw [parseAssoc]
  infer_instance

theorem finishes_parseArgsN (fuel : Nat) (hfuel : fuel ≤ n) :
    Finishes fuel (parseArgsN nested fuel) := by
  induction fuel with
  | zero => exact .zero
  | succ fuel ih =>
      have hrest := ih (Nat.le_of_succ_le hfuel)
      have hassoc := (finishes_parseAssoc nested).mono hfuel
      rw [parseArgsN]
      refine .isAtAny (fun _ _ => (finishes_pure []).finishesAt) (hassoc.bind fun x => ?_)
      exact .accept (by decide) inferInstance (finishes_pure [x])

/-- What follows the opening parenthesis. -/
theorem finishes_parseArgsRest : Finishes n (do
    let args ← fun s => parseArgsN nested s.size s
    expect_ .rParen .unclosedParen "expected ')'"
    return args) :=
  (Finishes.sized (finishes_parseArgsN nested)).bind fun _ => inferInstance

instance finishes_parseArgs : Finishes n (parseArgs nested) :=
  finishes_skip.bind fun _ => finishes_parseArgsRest nested

theorem takes_parseArgs : Takes n .lParen (parseArgs nested) :=
  (takes_skip (by decide)).bind fun _ => finishes_parseArgsRest nested

instance finishes_parseParenOrAggregate : Finishes n (parseParenOrAggregate nested) := by
  refine (finishes_parseArgs nested).bind fun args => ?_
  split <;> infer_instance

theorem takes_parseParenOrAggregate : Takes n .lParen (parseParenOrAggregate nested) := by
  refine (takes_parseArgs nested).bind fun args => ?_
  split <;> infer_instance

theorem finishes_parseSuffixesN (fuel : Nat) (hfuel : fuel ≤ n + 1) (x : Expr) :
    Finishes fuel (parseSuffixesN nested fuel x) := by
  induction fuel generalizing x with
  | zero => exact .zero
  | succ fuel ih =>
      have hrest := ih (Nat.le_of_succ_le hfuel)
      have hinner := hnested.mono (Nat.le_of_succ_le_succ hfuel)
      rw [parseSuffixesN]
      refine .kind fun k => ?_
      split
      · exact ((takes_skip (by decide)).bind fun _ => inferInstance).finishesAt
      · exact ((takes_parseArgs nested).bind fun _ => inferInstance).finishesAt
      · refine .look (fun _ => rfl) fun next => ?_
        split
        · exact ((takes_skip (by decide)).bind fun _ => inferInstance).finishesAt
        · exact ((takes_skip (by decide)).bind fun _ => inferInstance).finishesAt
      · exact (finishes_pure x).finishesAt

instance finishes_parseSuffixes (x : Expr) : Finishes (n + 1) (parseSuffixes nested x) :=
  .sized fun m hm => finishes_parseSuffixesN nested m hm x

instance finishes_parseNameWith : Finishes (n + 1) (parseNameWith nested) := by
  rw [parseNameWith]
  exact .ifAt (takes_parseParenOrAggregate nested).finishesAt inferInstance

instance finishes_parseOperand : Finishes (n + 1) (parseOperand nested) := by
  rw [parseOperand]
  refine .current fun t => ?_
  split
  case h_4 | h_5 =>
    refine (finishes_skip.bind fun _ => (finishes_accept? _).bind fun unit => ?_).finishesAt
    split <;> infer_instance
  case h_13 hkind =>
    rw [hkind]
    exact (takes_parseParenOrAggregate nested).finishesAt
  all_goals exact Finishes.finishesAt inferInstance

instance finishes_parseAllocatorsN (fuel : Nat) : Finishes fuel (parseAllocatorsN fuel) := by
  induction fuel with
  | zero => exact .zero
  | succ fuel ih =>
      rw [parseAllocatorsN]
      exact .accept? (by decide) (fun t => ih.bind fun _ => inferInstance) (finishes_pure [])

instance finishes_parsePrimary : Finishes (n + 1) (parsePrimary nested) := by
  have hallocators : Finishes (n + 1) (fun s => parseAllocatorsN s.size s) :=
    .sized fun m _ => finishes_parseAllocatorsN m
  rw [parsePrimary]
  infer_instance

end

section

variable {n : Nat} (operand : Parse Expr) [hoperand : Finishes n operand]

theorem finishes_parseChainN {ops : List Kind} (hops : .eof ∉ ops) (fuel : Nat) (hfuel : fuel ≤ n)
    (x : Expr) : Finishes fuel (parseChainN ops operand fuel x) := by
  induction fuel generalizing x with
  | zero => exact .zero
  | succ fuel ih =>
      have hrest := ih (Nat.le_of_succ_le hfuel)
      have hoperand' := hoperand.mono (Nat.le_of_succ_le hfuel)
      rw [parseChainN]
      refine .isAtAny (fun k hk => ?_) (finishes_pure x)
      have hne : k ≠ .eof := fun heof => hops (heof ▸ hk)
      exact ((takes_advance hne).bind fun op => hoperand'.bind fun y => inferInstance).finishesAt

theorem finishes_parseChain {ops : List Kind} (hops : .eof ∉ ops) (x : Expr) :
    Finishes n (parseChain ops operand x) :=
  .sized fun m hm => finishes_parseChainN operand hops m hm x

instance finishes_parsePair (ops : List Kind) : Finishes n (parsePair ops operand) := by
  rw [parsePair]
  infer_instance

end

section

variable {n : Nat} (nested : Parse Expr) [hnested : Finishes n nested]

instance finishes_parseFactor : Finishes (n + 1) (parseFactor nested) := by
  rw [parseFactor]
  infer_instance

instance finishes_parseTerm : Finishes (n + 1) (parseTerm nested) :=
  (finishes_parseFactor nested).bind fun x => finishes_parseChain _ (by decide) x

instance finishes_parseAdding : Finishes (n + 1) (parseAdding nested) := by
  have hchain (x : Expr) : Finishes (n + 1) (parseChain addingOps (parseTerm nested) x) :=
    finishes_parseChain _ (by decide) x
  rw [parseAdding]
  infer_instance

instance finishes_parseShift : Finishes (n + 1) (parseShift nested) := finishes_parsePair ..

instance finishes_parseRelation : Finishes (n + 1) (parseRelation nested) := finishes_parsePair ..

instance finishes_parseExprWith : Finishes (n + 1) (parseExprWith nested) :=
  (finishes_parseRelation nested).bind fun x => finishes_parseChain _ (by decide) x

instance finishes_parseRangeWith : Finishes (n + 1) (parseRangeWith nested) := by
  rw [parseRangeWith]
  refine (finishes_parseExprWith nested).bind fun x => (finishes_isAtAny _).bind fun isDirection => ?_
  split
  · infer_instance
  · refine .ifAt (Takes.finishesAt ?_) (finishes_pure x)
    refine (takes_advance (by decide)).bind fun word => (finishes_accept? _).bind fun box => ?_
    split <;> infer_instance

end

/-! ### All levels -/

section

variable {n : Nat}

/-- A level takes a token before it descends, so the levels allowed are never used up. -/
instance finishes_parseRangeN (n : Nat) : Finishes n (parseRangeN n) := by
  induction n with
  | zero => exact .zero
  | succ n ih =>
      rw [parseRangeN]
      infer_instance

instance finishes_parseRange : Finishes n parseRange :=
  .sized fun m _ => (finishes_parseRangeN (m + 1)).mono (Nat.le_succ m)

instance finishes_parse : Finishes n Expr.parse :=
  .sized fun m _ => (finishes_parseExprWith (parseRangeN m)).mono (Nat.le_succ m)

instance finishes_parseName : Finishes n parseName :=
  .sized fun m _ => (finishes_parseNameWith (parseRangeN m)).mono (Nat.le_succ m)

instance finishes_parseAssociation : Finishes n parseAssociation := finishes_parseAssoc parseRange

instance finishes_parseChoices : Finishes n parseChoices := finishes_sepByBar parseRange

end

end Expr

/-! ## Subtypes, interface lists and maps -/

section

variable {n : Nat}

instance finishes_parseIndex : Finishes n Constraint.parseIndex := by
  rw [Constraint.parseIndex]
  infer_instance

instance finishes_subtypeIndication : Finishes n SubtypeIndication.parse := by
  rw [SubtypeIndication.parse]
  refine Expr.finishes_parseTypeMark.bind fun first => (finishes_isAtAny _).bind fun isName => ?_
  have hrest (parts : Option Expr × Expr) : Finishes n (do
      match ← kind with
      | .lParen => return ⟨parts.1, parts.2, some (← Constraint.parseIndex)⟩
      | .kwRange =>
        skip
        return ⟨parts.1, parts.2, some (.range (← Expr.parseRange))⟩
      | _ => return ⟨parts.1, parts.2, none⟩ : Parse SubtypeIndication) := by
    refine finishes_kind.bind fun k => ?_
    split <;> infer_instance
  split
  · exact Expr.finishes_parseTypeMark.bind fun mark => hrest (some first, mark)
  · exact hrest (none, first)

instance finishes_parseDefault : Finishes n parseDefault := by
  rw [parseDefault]
  infer_instance

instance finishes_parseGeneric (t : RowTrivia) : Finishes n (InterfaceItem.parseGeneric t) := by
  rw [InterfaceItem.parseGeneric]
  infer_instance

instance finishes_parsePort (t : RowTrivia) : Finishes n (InterfaceItem.parsePort t) := by
  rw [InterfaceItem.parsePort]
  infer_instance

instance finishes_parseClause (word : Bytes) (row : RowTrivia → Parse InterfaceItem)
    [∀ t, Finishes n (row t)] : Finishes n (InterfaceList.parseClause word row) := by
  rw [InterfaceList.parseClause]
  infer_instance

instance finishes_parseGenerics : Finishes n InterfaceList.parseGenerics := by
  rw [InterfaceList.parseGenerics]
  infer_instance

instance finishes_parsePorts : Finishes n InterfaceList.parsePorts := by
  rw [InterfaceList.parsePorts]
  infer_instance

instance finishes_mapItem (t : RowTrivia) : Finishes n (MapList.parseItem t) := finishes_bind

instance finishes_mapList : Finishes n MapList.parse := by
  rw [MapList.parse]
  infer_instance

end

end VhdlStyle
