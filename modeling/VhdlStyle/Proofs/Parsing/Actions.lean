import VhdlStyle.Proofs.Parsing.Wordwise
import VhdlStyle.Design.Unit.Parser

/-! # Every parsing action sees only words

The instances follow the parser from the shared actions up to design units. A loop is built by
induction on its bound, and an action with a parameter for what nests inside it is built when the
parameter is. Actions that read expressions and names take no comments. The outermost level is
`Built` and no more: after an error it looks for the start of a line. -/

namespace VhdlStyle

open Parse

set_option synthInstance.maxSize 2000

variable {takes : Bool} {α : Type}

/-! ## Shared actions -/

namespace Parse

instance wordwise_skip : Wordwise takes skip := by unfold skip; infer_instance

instance wordwise_accept (k : Kind) : Wordwise takes (accept k) := by
  have hword (t : Token) :
      Agree (pure (some t).isSome : Parse Bool) (pure (some t.asWord).isSome) := ⟨rfl⟩
  unfold accept
  infer_instance

instance wordwise_fault (code : Code) (message : Bytes) : Wordwise takes (fault code message) :=
  .report .current .error code message

instance wordwise_faultGot (code : Code) (expected : Bytes) :
    Wordwise takes (faultGot code expected) := by
  unfold faultGot; infer_instance

instance built_accept? (k : Kind) : Built takes (accept? k) := by unfold accept?; infer_instance

instance built_accept?_bind {k : Kind} {f : Option Token → Parse α} [hnone : Built takes (f none)]
    [hsome : ∀ t, Built takes (f (some t))] : Built takes (accept? k >>= f) := by
  rw [accept?_bind]
  infer_instance

theorem expect_bind (k : Kind) (code : Code) (expected : Bytes) (f : Option Token → Parse α) :
    (expect k code expected >>= f) = isAt k >>= fun b =>
      if b then advance >>= fun t => f (some t)
      else faultGot code expected >>= fun _ => f none := by
  rw [expect, bind_assoc]
  refine congrArg (isAt k >>= ·) (funext fun b => ?_)
  cases b <;> rfl

instance wordwise_expect_bind {k : Kind} {code : Code} {expected : Bytes}
    {f : Option Token → Parse α} [hnone : Wordwise takes (f none)]
    [hsome : ∀ t, Wordwise takes (f (some t))]
    [hword : ∀ t, Agree (f (some t)) (f (some t.asWord))] :
    Wordwise takes (expect k code expected >>= f) := by
  rw [expect_bind]
  infer_instance

instance wordwise_expect_ (k : Kind) (code : Code) (expected : Bytes) :
    Wordwise takes (expect_ k code expected) := by unfold expect_; infer_instance

instance wordwise_keyword (k : Kind) : Wordwise takes (keyword k) := by
  unfold keyword; infer_instance

instance wordwise_semicolon : Wordwise takes semicolon := by unfold semicolon; infer_instance

instance wordwise_manyN (stops : List Kind) (item : Parse (Option α)) [Wordwise takes item]
    (n : Nat) : Wordwise takes (manyN stops item n) := by
  induction n with
  | zero => unfold manyN; infer_instance
  | succ n ih =>
      unfold manyN
      refine .bind inferInstance fun atStop => .bind inferInstance fun atEnd => ?_
      split
      · infer_instance
      · refine .get (fun s t h => by simp only [ParseState.size_eq_of_leaves h]) fun s => ?_
        refine .bind inferInstance fun x => ?_
        refine .get (fun s t h => by simp only [ParseState.size_eq_of_leaves h]) fun t => ?_
        infer_instance

instance wordwise_many (stops : List Kind) (item : Parse (Option α)) [Wordwise takes item] :
    Wordwise takes (many stops item) := by unfold many; infer_instance

instance wordwise_afterEachN (sep : Kind) (item : Parse α) [Wordwise takes item] (n : Nat) :
    Wordwise takes (afterEachN sep item n) := by
  induction n with
  | zero => unfold afterEachN; infer_instance
  | succ n ih => unfold afterEachN; infer_instance

instance wordwise_sepBy (sep : Kind) (item : Parse α) [Wordwise takes item] :
    Wordwise takes (sepBy sep item) := by unfold sepBy; infer_instance

instance wordwise_sepBySomeN (sep : Kind) (item : Parse (Option α)) [Wordwise takes item]
    (n : Nat) : Wordwise takes (sepBySomeN sep item n) := by
  induction n with
  | zero => unfold sepBySomeN; infer_instance
  | succ n ih =>
      unfold sepBySomeN
      refine .bind inferInstance fun x => ?_
      split <;> infer_instance

instance wordwise_sepBySome (sep : Kind) (item : Parse (Option α)) [Wordwise takes item] :
    Wordwise takes (sepBySome sep item) := by
  unfold sepBySome
  exact wordwise_sized (f := fun n => sepBySomeN sep item (n + 1))

instance wordwise_ident? : Wordwise takes ident? := by unfold ident?; infer_instance

instance wordwise_ident : Wordwise takes ident := by unfold ident; infer_instance

instance wordwise_identList : Wordwise takes identList := by unfold identList; infer_instance

instance wordwise_optLabel : Wordwise takes optLabel := by unfold optLabel; infer_instance

instance wordwise_checkEndLabel (label name : Bytes) :
    Wordwise takes (checkEndLabel label name) := by
  unfold checkEndLabel
  split
  · exact .report .last .warning .endLabelMismatch _
  · infer_instance

instance wordwise_forM_keyword (words : List Kind) : Wordwise takes (words.forM keyword) := by
  induction words with
  | nil => exact .pure ()
  | cons word others ih => exact .bind inferInstance fun _ => ih

instance wordwise_endClause (name : Bytes) (words : List Kind) :
    Wordwise takes (endClause name words) := by
  unfold endClause
  refine .bind inferInstance fun _ => ?_
  split
  · infer_instance
  · refine .bind inferInstance fun isWord => ?_
    split
    · exact .bind inferInstance fun _ => .bind inferInstance fun _ => inferInstance
    · infer_instance

instance wordwise_resyncN (stops : List Kind) (n depth : Nat) :
    Wordwise takes (resyncN stops n depth) := by
  induction n generalizing depth with
  | zero => unfold resyncN; infer_instance
  | succ n ih => unfold resyncN; infer_instance

instance wordwise_resyncTo (stops : List Kind) : Wordwise takes (resyncTo stops) := by
  unfold resyncTo
  exact wordwise_sized (f := fun n => resyncN stops n 0)

instance wordwise_withInline (t : RowTrivia) : Wordwise true (withInline t) := by
  unfold withInline; infer_instance

instance wordwise_rowsN (sep : Kind) (row : RowTrivia → Parse α) (setInline : α → Bytes → α)
    [∀ t, Wordwise true (row t)] (n : Nat) : Wordwise true (rowsN sep row setInline n) := by
  induction n with
  | zero => unfold rowsN; infer_instance
  | succ n ih => unfold rowsN; infer_instance

instance wordwise_rows (sep : Kind) (row : RowTrivia → Parse α) (setInline : α → Bytes → α)
    [∀ t, Wordwise true (row t)] : Wordwise true (rows sep row setInline) := by
  unfold rows; infer_instance

end Parse

/-! ## Expressions -/

namespace Expr

instance wordwise_parseAttributeName : Wordwise takes parseAttributeName := by
  unfold parseAttributeName leafOf Token.isIdent Token.isKeyword; infer_instance

instance wordwise_parseSelectionsN (n : Nat) (x : Expr) :
    Wordwise takes (parseSelectionsN n x) := by
  induction n generalizing x with
  | zero => unfold parseSelectionsN; infer_instance
  | succ n ih => unfold parseSelectionsN leafOf Token.isAny; infer_instance

instance wordwise_parseSelectedName : Wordwise takes parseSelectedName := by
  unfold parseSelectedName
  refine .bind inferInstance fun name => ?_
  exact wordwise_sized (f := fun n => parseSelectionsN n (.ident name))

instance wordwise_parseMarkAttributesN (n : Nat) (x : Expr) :
    Wordwise takes (parseMarkAttributesN n x) := by
  induction n generalizing x with
  | zero => unfold parseMarkAttributesN; infer_instance
  | succ n ih => unfold parseMarkAttributesN; infer_instance

instance wordwise_parseTypeMark : Wordwise takes parseTypeMark := by
  unfold parseTypeMark
  refine .bind inferInstance fun x => ?_
  exact wordwise_sized (f := fun n => parseMarkAttributesN n x)

section

variable (nested : Parse Expr) [Wordwise takes nested]

instance wordwise_parseAssoc : Wordwise takes (parseAssoc nested) := by
  unfold parseAssoc; infer_instance

instance wordwise_parseArgsN (n : Nat) : Wordwise takes (parseArgsN nested n) := by
  induction n with
  | zero => unfold parseArgsN; infer_instance
  | succ n ih => unfold parseArgsN; infer_instance

instance wordwise_parseArgs : Wordwise takes (parseArgs nested) := by
  unfold parseArgs; infer_instance

instance wordwise_parseParenOrAggregate : Wordwise takes (parseParenOrAggregate nested) := by
  unfold parseParenOrAggregate
  refine .bind inferInstance fun args => ?_
  split <;> infer_instance

instance wordwise_parseSuffixesN (n : Nat) (x : Expr) :
    Wordwise takes (parseSuffixesN nested n x) := by
  induction n generalizing x with
  | zero => unfold parseSuffixesN; infer_instance
  | succ n ih =>
      unfold parseSuffixesN leafOf Token.isAny
      refine .bind inferInstance fun k => ?_
      split <;> infer_instance

instance wordwise_parseSuffixes (x : Expr) : Wordwise takes (parseSuffixes nested x) := by
  unfold parseSuffixes
  exact wordwise_sized (f := fun n => parseSuffixesN nested n x)

instance wordwise_parseNameWith : Wordwise takes (parseNameWith nested) := by
  unfold parseNameWith leafOf; infer_instance

instance wordwise_parseOperand : Wordwise takes (parseOperand nested) := by
  unfold parseOperand leafOf
  refine .current (fun t => rfl) fun t => ?_
  split <;> infer_instance

instance wordwise_parseAllocatorsN (n : Nat) : Wordwise takes (parseAllocatorsN n) := by
  induction n with
  | zero => unfold parseAllocatorsN; infer_instance
  | succ n ih =>
      unfold parseAllocatorsN leafOf
      infer_instance

instance wordwise_parsePrimary : Wordwise takes (parsePrimary nested) := by
  unfold parsePrimary; infer_instance

instance wordwise_parseChainN (ops : List Kind) (operand : Parse Expr) [Wordwise takes operand]
    (n : Nat) (x : Expr) : Wordwise takes (parseChainN ops operand n x) := by
  induction n generalizing x with
  | zero => unfold parseChainN; infer_instance
  | succ n ih => unfold parseChainN leafOf; infer_instance

instance wordwise_parseChain (ops : List Kind) (operand : Parse Expr) [Wordwise takes operand]
    (x : Expr) : Wordwise takes (parseChain ops operand x) := by
  unfold parseChain
  exact wordwise_sized (f := fun n => parseChainN ops operand n x)

instance wordwise_parsePair (ops : List Kind) (operand : Parse Expr) [Wordwise takes operand] :
    Wordwise takes (parsePair ops operand) := by unfold parsePair leafOf; infer_instance

instance wordwise_parseFactor : Wordwise takes (parseFactor nested) := by
  unfold parseFactor leafOf; infer_instance

instance wordwise_parseTerm : Wordwise takes (parseTerm nested) := by
  unfold parseTerm; infer_instance

instance wordwise_parseAdding : Wordwise takes (parseAdding nested) := by
  unfold parseAdding leafOf; infer_instance

instance wordwise_parseShift : Wordwise takes (parseShift nested) := by
  unfold parseShift; infer_instance

instance wordwise_parseRelation : Wordwise takes (parseRelation nested) := by
  unfold parseRelation; infer_instance

instance wordwise_parseExprWith : Wordwise takes (parseExprWith nested) := by
  unfold parseExprWith; infer_instance

instance wordwise_parseRangeWith : Wordwise takes (parseRangeWith nested) := by
  unfold parseRangeWith leafOf
  infer_instance

end

instance wordwise_parseRangeN (n : Nat) : Wordwise takes (parseRangeN n) := by
  induction n with
  | zero => unfold parseRangeN; infer_instance
  | succ n ih => unfold parseRangeN; infer_instance

instance wordwise_parseRange : Wordwise takes parseRange :=
  wordwise_sized (f := fun n => parseRangeN (n + 1))

instance wordwise_parse : Wordwise takes Expr.parse :=
  wordwise_sized (f := fun n => parseExprWith (parseRangeN n))

instance wordwise_parseName : Wordwise takes parseName :=
  wordwise_sized (f := fun n => parseNameWith (parseRangeN n))

instance wordwise_parseAssociation : Wordwise takes parseAssociation := by
  unfold parseAssociation; infer_instance

instance wordwise_parseChoices : Wordwise takes parseChoices := by
  unfold parseChoices; infer_instance

end Expr

/-! ## Subtypes, interface lists and maps -/

instance wordwise_parseIndex : Wordwise takes Constraint.parseIndex := by
  unfold Constraint.parseIndex; infer_instance

instance wordwise_subtypeIndication : Wordwise takes SubtypeIndication.parse := by
  unfold SubtypeIndication.parse
  refine .bind inferInstance fun first => .bind inferInstance fun isName => ?_
  extract_lets -underBinder next
  have hnext (parts : Option Expr × Expr) : Wordwise takes (next parts) := by
    refine .bind inferInstance fun k => ?_
    split <;> infer_instance
  clear_value next
  infer_instance

instance wordwise_parseDefault : Wordwise takes parseDefault := by
  unfold parseDefault; infer_instance

instance wordwise_parseGeneric (t : RowTrivia) : Wordwise takes (InterfaceItem.parseGeneric t) := by
  unfold InterfaceItem.parseGeneric; infer_instance

instance wordwise_parsePort (t : RowTrivia) : Wordwise takes (InterfaceItem.parsePort t) := by
  unfold InterfaceItem.parsePort; infer_instance

instance wordwise_parseClause (word : Bytes) (row : RowTrivia → Parse InterfaceItem)
    [∀ t, Wordwise true (row t)] : Wordwise true (InterfaceList.parseClause word row) := by
  unfold InterfaceList.parseClause; infer_instance

instance wordwise_parseGenerics : Wordwise true InterfaceList.parseGenerics := by
  unfold InterfaceList.parseGenerics; infer_instance

instance wordwise_parsePorts : Wordwise true InterfaceList.parsePorts := by
  unfold InterfaceList.parsePorts; infer_instance

instance wordwise_mapItem (t : RowTrivia) : Wordwise takes (MapList.parseItem t) := by
  unfold MapList.parseItem; infer_instance

instance wordwise_mapList : Wordwise true MapList.parse := by unfold MapList.parse; infer_instance

/-! ## Sequential statements -/

instance wordwise_parseLabel : Wordwise takes Head.parseLabel := by
  unfold Head.parseLabel; infer_instance

instance wordwise_finish (h : Head) : Wordwise true h.finish := by
  unfold Head.finish; infer_instance

instance wordwise_parseElement : Wordwise takes CondWaveform.parseElement := by
  unfold CondWaveform.parseElement Expr.leafOf
  infer_instance

instance wordwise_parseWaveform : Wordwise takes CondWaveform.parseWaveform := by
  unfold CondWaveform.parseWaveform Expr.leafOf
  infer_instance

instance wordwise_parseArmsN (n : Nat) : Wordwise takes (CondWaveform.parseArmsN n) := by
  induction n with
  | zero => unfold CondWaveform.parseArmsN; infer_instance
  | succ n ih => unfold CondWaveform.parseArmsN; infer_instance

instance wordwise_parseArms : Wordwise takes CondWaveform.parseArms := by
  unfold CondWaveform.parseArms; infer_instance

instance wordwise_assertion (postponed : Bool) : Wordwise takes (Assertion.parse postponed) := by
  unfold Assertion.parse; infer_instance

namespace SeqStmt

instance wordwise_parseLoopControl (h : Head) : Wordwise true (parseLoopControl h) := by
  unfold parseLoopControl; infer_instance

instance wordwise_parseReturn (h : Head) : Wordwise true (parseReturn h) := by
  unfold parseReturn; infer_instance

instance wordwise_parseWait (h : Head) : Wordwise true (parseWait h) := by
  unfold parseWait
  refine .bind inferInstance fun _ => .bind inferInstance fun hasOn => ?_
  extract_lets -underBinder next
  have hnext (signals : List Expr) : Wordwise true (next signals) := by infer_instance
  clear_value next
  infer_instance

instance wordwise_parseReport (h : Head) : Wordwise true (parseReport h) := by
  unfold parseReport; infer_instance

instance wordwise_parseNamed (h : Head) : Wordwise true (parseNamed h) := by
  unfold parseNamed; infer_instance

instance wordwise_parseScheme : Wordwise takes parseScheme := by unfold parseScheme; infer_instance

section

variable (block : Parse (List SeqStmt)) [Wordwise true block]

instance wordwise_parseBranch (cond : Option Expr) : Wordwise true (parseBranch block cond) := by
  unfold parseBranch; infer_instance

instance wordwise_parseCondBranch : Wordwise true (parseCondBranch block) := by
  unfold parseCondBranch; infer_instance

instance wordwise_parseIf (h : Head) : Wordwise true (parseIf block h) := by
  unfold parseIf; infer_instance

instance wordwise_parseAlt : Wordwise true (parseAlt block) := by unfold parseAlt; infer_instance

instance wordwise_parseAltsN (n : Nat) : Wordwise true (parseAltsN block n) := by
  induction n with
  | zero => unfold parseAltsN; infer_instance
  | succ n ih => unfold parseAltsN; infer_instance

instance wordwise_parseCase (h : Head) : Wordwise true (parseCase block h) := by
  unfold parseCase; infer_instance

instance wordwise_parseLoop (h : Head) : Wordwise true (parseLoop block h) := by
  unfold parseLoop; infer_instance

instance wordwise_parseWith : Wordwise true (parseWith block) := by
  unfold parseWith
  refine .bind inferInstance fun t => .bind inferInstance fun label => ?_
  refine .bind inferInstance fun k => ?_
  split <;> infer_instance

end

instance wordwise_parseBlockN (n : Nat) : Wordwise true (parseBlockN n) := by
  induction n with
  | zero => unfold parseBlockN; infer_instance
  | succ n ih => unfold parseBlockN; infer_instance

instance wordwise_parseBlock : Wordwise true parseBlock := by unfold parseBlock; infer_instance

end SeqStmt

/-! ## Declarations -/

instance wordwise_useClause : Wordwise true UseClause.parse := by
  unfold UseClause.parse; infer_instance

namespace TypeDef

instance wordwise_parseLiteral : Wordwise takes parseLiteral := by
  unfold parseLiteral Expr.leafOf
  infer_instance

instance wordwise_parseUnit : Wordwise true parseUnit := by unfold parseUnit; infer_instance

instance wordwise_parseUnits : Wordwise true parseUnits := by unfold parseUnits; infer_instance

instance wordwise_parseField : Wordwise true parseField := by unfold parseField; infer_instance

instance wordwise_parse : Wordwise true TypeDef.parse := by
  unfold TypeDef.parse
  refine .bind inferInstance fun k => ?_
  split <;> infer_instance

end TypeDef

instance wordwise_subprogramSpec : Wordwise true SubprogramSpec.parse := by
  unfold SubprogramSpec.parse
  refine .bind inferInstance fun isPurity => ?_
  extract_lets -underBinder next
  have hnext (purity : Bytes) : Wordwise true (next purity) := by
    refine .bind inferInstance fun isKind => ?_
    extract_lets -underBinder next
    have hnext (kind : Bytes) : Wordwise true (next kind) := by
      refine .bind inferInstance fun isString => ?_
      extract_lets -underBinder next
      have hnext (name : Bytes) : Wordwise true (next name) := by
        refine .bind inferInstance fun _ => .bind inferInstance fun hasParams => ?_
        extract_lets -underBinder next
        have hnext (params : List InterfaceItem × List Comment) : Wordwise true (next params) := by
          infer_instance
        clear_value next
        infer_instance
      clear_value next
      infer_instance
    clear_value next
    infer_instance
  clear_value next
  infer_instance

namespace Decl

instance wordwise_parseObjectClass : Wordwise takes parseObjectClass := by
  unfold parseObjectClass
  refine .advance (fun t => rfl) fun word => ?_
  split <;> infer_instance

instance wordwise_parseObject (t : RowTrivia) : Wordwise true (parseObject t) := by
  unfold parseObject; infer_instance

instance wordwise_parseType (t : RowTrivia) : Wordwise true (parseType t) := by
  unfold parseType; infer_instance

instance wordwise_parseSubtype (t : RowTrivia) : Wordwise true (parseSubtype t) := by
  unfold parseSubtype; infer_instance

instance wordwise_parseAlias (t : RowTrivia) : Wordwise true (parseAlias t) := by
  unfold parseAlias; infer_instance

instance wordwise_parseComponent (t : RowTrivia) : Wordwise true (parseComponent t) := by
  unfold parseComponent; infer_instance

instance wordwise_parseAttribute (t : RowTrivia) : Wordwise true (parseAttribute t) := by
  unfold parseAttribute; infer_instance

instance wordwise_parseEntity : Wordwise takes parseEntity := by
  unfold parseEntity Expr.leafOf; infer_instance

instance wordwise_parseAttributeSpec (t : RowTrivia) : Wordwise true (parseAttributeSpec t) := by
  unfold parseAttributeSpec
  refine .bind inferInstance fun _ => .bind inferInstance fun name => ?_
  refine .bind inferInstance fun _ => .bind inferInstance fun entities => ?_
  refine .bind inferInstance fun _ => .current (fun t => rfl) fun t => ?_
  infer_instance

instance wordwise_parseRawN (n : Nat) (depth : Int) : Wordwise takes (parseRawN n depth) := by
  induction n generalizing depth with
  | zero => unfold parseRawN; infer_instance
  | succ n ih => unfold parseRawN Token.isKeyword Token.isIdent; infer_instance

instance wordwise_parseRaw (t : RowTrivia) : Wordwise true (parseRaw t) := by
  unfold parseRaw
  refine .bind (wordwise_sized (f := fun n => parseRawN n 0)) fun tokens => ?_
  infer_instance

instance wordwise_skipProtectedN (n : Nat) : Wordwise takes (skipProtectedN n) := by
  induction n with
  | zero => unfold skipProtectedN; infer_instance
  | succ n ih => unfold skipProtectedN; infer_instance

instance wordwise_parseTypeOrRaw : Wordwise true parseTypeOrRaw := by
  unfold parseTypeOrRaw
  refine .bind inferInstance fun k => ?_
  split <;> infer_instance

section

variable (part : Parse (List Decl)) [Wordwise true part]

instance wordwise_parseSubprogram (t : RowTrivia) : Wordwise true (parseSubprogram part t) := by
  unfold parseSubprogram
  refine .bind inferInstance fun spec => .bind inferInstance fun hasBody => ?_
  split
  · infer_instance
  · refine .bind inferInstance fun decls => .bind inferInstance fun declTail => ?_
    refine .bind inferInstance fun _ => .bind inferInstance fun stmts => ?_
    refine .bind inferInstance fun tail => .bind inferInstance fun _ => ?_
    refine .bind inferInstance fun isKind => ?_
    extract_lets -underBinder next
    have hnext (u : Unit) : Wordwise true (next u) := by infer_instance
    clear_value next
    split
    · exact .bind inferInstance hnext
    · exact hnext ()

instance wordwise_parseWith : Wordwise true (parseWith part) := by
  unfold parseWith
  refine .bind inferInstance fun k => ?_
  split <;> infer_instance

end

instance wordwise_parsePartN (n : Nat) : Wordwise true (parsePartN n) := by
  induction n with
  | zero => unfold parsePartN; infer_instance
  | succ n ih => unfold parsePartN; infer_instance

instance wordwise_parsePart : Wordwise true parsePart := by unfold parsePart; infer_instance

end Decl

/-! ## Concurrent statements -/

namespace ConcStmt

instance wordwise_parseSensitivity : Wordwise takes parseSensitivity := by
  unfold parseSensitivity Expr.leafOf; infer_instance

instance wordwise_parseProcess (h : Head) (postponed : Bool) :
    Wordwise true (parseProcess h postponed) := by unfold parseProcess; infer_instance

instance wordwise_parseMaps (h : Head) (inst : Instantiation) :
    Wordwise true (parseMaps h inst) := by
  unfold parseMaps; infer_instance

instance wordwise_parseInstance (h : Head) : Wordwise true (parseInstance h) := by
  unfold parseInstance; infer_instance

instance wordwise_parseSelectedArm : Wordwise takes parseSelectedArm := by
  unfold parseSelectedArm; infer_instance

instance wordwise_parseSelected (h : Head) : Wordwise true (parseSelected h) := by
  unfold parseSelected; infer_instance

instance wordwise_skipBlockN (n : Nat) (depth : Int) (afterEnd : Bool) :
    Wordwise takes (skipBlockN n depth afterEnd) := by
  induction n generalizing depth afterEnd with
  | zero => unfold skipBlockN; infer_instance
  | succ n ih => unfold skipBlockN; infer_instance

instance wordwise_skipBlock : Wordwise takes (fun s => skipBlockN s.size 0 false s) :=
  wordwise_sized (f := fun n => skipBlockN n 0 false)

instance wordwise_parseNamed (h : Head) : Wordwise true (parseNamed h) := by
  unfold parseNamed; infer_instance

instance wordwise_checkGenerateLabel (h : Head) : Wordwise takes (checkGenerateLabel h) := by
  unfold checkGenerateLabel; infer_instance

section

variable (block : Parse (List ConcStmt)) [Wordwise true block]

instance wordwise_parseBody : Wordwise true (parseBody block) := by unfold parseBody; infer_instance

instance wordwise_parseForGenerate (h : Head) : Wordwise true (parseForGenerate block h) := by
  unfold parseForGenerate; infer_instance

instance wordwise_parseCondBranch : Wordwise true (parseCondBranch block) := by
  unfold parseCondBranch; infer_instance

instance wordwise_parseIfGenerate (h : Head) : Wordwise true (parseIfGenerate block h) := by
  unfold parseIfGenerate; infer_instance

instance wordwise_parseWith : Wordwise true (parseWith block) := by
  unfold parseWith
  refine .bind inferInstance fun t => .bind inferInstance fun label => ?_
  refine .bind inferInstance fun postponed => .bind inferInstance fun k => ?_
  split <;> infer_instance

end

instance wordwise_parseBlockN (n : Nat) : Wordwise true (parseBlockN n) := by
  induction n with
  | zero => unfold parseBlockN; infer_instance
  | succ n ih => unfold parseBlockN; infer_instance

instance wordwise_parseBlock : Wordwise true parseBlock := by unfold parseBlock; infer_instance

end ConcStmt

/-! ## Design units and files -/

instance wordwise_parseLibrary : Wordwise true ContextItem.parseLibrary := by
  unfold ContextItem.parseLibrary; infer_instance

namespace DesignUnit

instance wordwise_close (t : RowTrivia) (context : List ContextItem) (name : Bytes)
    (body : UnitBody) (words : List Kind) : Wordwise true (close t context name body words) := by
  unfold close; infer_instance

instance wordwise_parseEntity (context : List ContextItem) :
    Wordwise true (parseEntity context) := by
  unfold parseEntity; infer_instance

instance wordwise_parseArchitecture (context : List ContextItem) :
    Wordwise true (parseArchitecture context) := by unfold parseArchitecture; infer_instance

instance wordwise_parsePackage (context : List ContextItem) :
    Wordwise true (parsePackage context) := by
  unfold parsePackage; infer_instance

instance wordwise_parsePackageBody (context : List ContextItem) :
    Wordwise true (parsePackageBody context) := by unfold parsePackageBody; infer_instance

end DesignUnit

namespace DesignFile

instance built_resyncN (n : Nat) : Built takes (resyncN n) := by
  induction n with
  | zero => unfold resyncN; infer_instance
  | succ n ih =>
      unfold resyncN
      refine .get (fun s t h => ?_) fun s => inferInstance
      have hrest : s.rest = t.rest := congrArg ParseView.rest h
      have hstarted : s.started = t.started := congrArg ParseView.started h
      have hkind : s.kind = t.kind := by rw [ParseState.kind, ParseState.current, hrest]; rfl
      have hline : s.atLineStart = t.atLineStart := by
        rw [ParseState.atLineStart, ParseState.current, hrest, hstarted]; rfl
      rw [hkind, hline]

instance built_parseStep (context : List ContextItem) : Built true (parseStep context) := by
  unfold parseStep
  refine .bind inferInstance fun k => ?_
  split <;> infer_instance

instance built_parseUnitsN (n : Nat) (context : List ContextItem) :
    Built true (parseUnitsN n context) := by
  induction n generalizing context with
  | zero => unfold parseUnitsN; infer_instance
  | succ n ih =>
      unfold parseUnitsN
      refine .bind inferInstance fun atEnd => ?_
      split
      · infer_instance
      · refine .get (fun s t h => by simp only [ParseState.size_eq_of_view h]) fun s => ?_
        refine .bind inferInstance fun step => ?_
        refine .get (fun s t h => by simp only [ParseState.size_eq_of_view h]) fun t => ?_
        infer_instance

instance built_parseTokens : Built true parseTokens := by
  unfold parseTokens
  refine .bind (built_sized (f := fun n => parseUnitsN n [])) fun units => ?_
  infer_instance

end DesignFile

end VhdlStyle
