import VhdlStyle.Proofs.Parsing.ExprTermination

/-! # No loop of the parser gives up

Statements, declarations, design units and whole files. -/

namespace VhdlStyle

open Parse

set_option synthInstance.maxSize 2000

/-! ## Sequential statements -/

section

variable {n : Nat}

instance finishes_parseLabel : Finishes n Head.parseLabel := by
  rw [Head.parseLabel]
  infer_instance

instance finishes_finish (h : Head) : Finishes n h.finish := by
  rw [Head.finish]
  infer_instance

instance finishes_parseElement : Finishes n CondWaveform.parseElement := by
  refine Expr.finishes_parse.bind fun x => (finishes_accept? _).bind fun t => ?_
  split <;> infer_instance

instance finishes_parseWaveform : Finishes n CondWaveform.parseWaveform := by
  refine (finishes_accept? _).bind fun t => ?_
  split <;> infer_instance

instance finishes_parseArmsN (fuel : Nat) : Finishes fuel (CondWaveform.parseArmsN fuel) := by
  induction fuel with
  | zero => exact .zero
  | succ fuel ih =>
      rw [CondWaveform.parseArmsN]
      refine finishes_parseWaveform.bind fun waveform => ?_
      refine .accept (by decide) ?_ (finishes_pure _)
      exact Expr.finishes_parse.bind fun cond => inferInstance

instance finishes_parseArms : Finishes n CondWaveform.parseArms :=
  .sized fun m _ => finishes_parseArmsN m

instance finishes_assertion (postponed : Bool) : Finishes n (Assertion.parse postponed) := by
  rw [Assertion.parse]
  infer_instance

end

namespace SeqStmt

section

variable {n : Nat}

instance finishes_parseLoopControl (h : Head) : Finishes n (parseLoopControl h) := by
  rw [parseLoopControl]
  infer_instance

instance finishes_parseReturn (h : Head) : Finishes n (parseReturn h) := by
  rw [parseReturn]
  infer_instance

instance finishes_parseWait (h : Head) : Finishes n (parseWait h) := by
  refine finishes_skip.bind fun _ => (finishes_accept _).bind fun hasOn => ?_
  extract_lets -underBinder next
  have hnext (signals : List Expr) : Finishes n (next signals) := inferInstance
  clear_value next
  infer_instance

instance finishes_parseReport (h : Head) : Finishes n (parseReport h) := by
  rw [parseReport]
  infer_instance

instance finishes_parseNamed (h : Head) : Finishes n (parseNamed h) := by
  rw [parseNamed]
  infer_instance

/-! ### One level of nesting -/

variable (block : Parse (List SeqStmt)) [hblock : Finishes n block]

instance finishes_parseBranch (cond : Option Expr) : Finishes n (parseBranch block cond) := by
  rw [parseBranch]
  infer_instance

instance finishes_parseCondBranch : Finishes n (parseCondBranch block) := by
  rw [parseCondBranch]
  infer_instance

theorem takes_parseIf (h : Head) : Takes n .kwIf (parseIf block h) := by
  have hothers : Finishes n (fun s => afterEachN .kwElsif (parseCondBranch block) s.size s) :=
    finishes_afterEach (by decide) _
  exact (takes_skip (by decide)).bind fun _ => inferInstance

theorem takes_parseAlt : Takes n .kwWhen (parseAlt block) := by
  refine .after finishes_rowTrivia kind_rowTrivia fun trivia => ?_
  exact (takes_skip (by decide)).bind fun _ => inferInstance

theorem finishes_parseAltsN (fuel : Nat) (hfuel : fuel ≤ n) :
    Finishes fuel (parseAltsN block fuel) := by
  induction fuel with
  | zero => exact .zero
  | succ fuel ih =>
      have hrest := ih (Nat.le_of_succ_le hfuel)
      have hblock' := hblock.mono (Nat.le_of_succ_le hfuel)
      rw [parseAltsN]
      refine .isAt (Takes.finishesAt ?_) (finishes_pure [])
      exact (takes_parseAlt block).bind fun alt => inferInstance

theorem takes_parseCase (h : Head) : Takes n .kwCase (parseCase block h) := by
  have halts : Finishes n (fun s => parseAltsN block s.size s) :=
    .sized (finishes_parseAltsN block)
  exact (takes_skip (by decide)).bind fun _ => inferInstance

/-- A loop starts with what controls it or, if nothing does, with its own word. -/
theorem takes_parseLoop (h : Head) {k : Kind} (hk : k ∈ [Kind.kwFor, .kwWhile, .kwLoop]) :
    Takes n k (parseLoop block h) := by
  rw [parseLoop, parseScheme, bind_assoc]
  simp only [List.mem_cons, List.not_mem_nil, or_false] at hk
  rcases hk with rfl | rfl | rfl
  · exact .accept (by decide) (Finishes.bind inferInstance fun scheme => inferInstance)
  · refine .pass (by decide) ?_
    exact .bind (.accept (by decide) inferInstance) fun scheme => inferInstance
  · refine .pass (by decide) ?_
    rw [if_neg Bool.false_ne_true, bind_assoc]
    refine .pass (by decide) ?_
    rw [if_neg Bool.false_ne_true, pure_bind]
    exact (takes_keyword (by decide)).bind fun _ => inferInstance

instance finishes_parseWith : Finishes (n + 1) (parseWith block) := by
  rw [parseWith]
  refine finishes_rowTrivia.bind fun trivia => finishes_parseLabel.bind fun label => .kind fun k => ?_
  split
  · exact (takes_parseIf block _).map.finishesAt
  · exact (takes_parseCase block _).map.finishesAt
  · exact (takes_parseLoop block _ (by decide)).map.finishesAt
  · exact (takes_parseLoop block _ (by decide)).map.finishesAt
  · exact (takes_parseLoop block _ (by decide)).map.finishesAt
  all_goals exact Finishes.finishesAt inferInstance

end

/-! ### All levels -/

instance finishes_parseBlockN (n : Nat) : Finishes n (parseBlockN n) := by
  induction n with
  | zero => exact .zero
  | succ n ih =>
      rw [parseBlockN]
      infer_instance

instance finishes_parseBlock (n : Nat) : Finishes n parseBlock :=
  .sized fun m _ => finishes_parseBlockN m

end SeqStmt

/-! ## Declarations -/

section

variable {n : Nat}

instance finishes_useClause : Finishes n UseClause.parse := by
  rw [UseClause.parse]
  infer_instance

instance finishes_parseLiteral : Finishes n TypeDef.parseLiteral := by
  refine (finishes_accept? _).bind fun t => ?_
  split <;> infer_instance

instance finishes_parseUnit : Finishes n TypeDef.parseUnit := by
  rw [TypeDef.parseUnit]
  infer_instance

instance finishes_parseUnits : Finishes n TypeDef.parseUnits := by
  rw [TypeDef.parseUnits]
  infer_instance

instance finishes_parseField : Finishes n TypeDef.parseField := by
  rw [TypeDef.parseField]
  infer_instance

instance finishes_typeDef : Finishes n TypeDef.parse := by
  have hliterals : Finishes n (sepBySome .comma TypeDef.parseLiteral) :=
    finishes_sepBySome (by decide) _
  refine finishes_kind.bind fun k => ?_
  split <;> infer_instance

instance finishes_subprogramSpec : Finishes n SubprogramSpec.parse := by
  refine (finishes_isAtAny _).bind fun isPurity => ?_
  extract_lets -underBinder next
  have hnext (purity : Bytes) : Finishes n (next purity) := by
    refine (finishes_isAtAny _).bind fun isKind => ?_
    extract_lets -underBinder next
    have hnext (kind : Bytes) : Finishes n (next kind) := by
      refine (finishes_isAt _).bind fun isString => ?_
      extract_lets -underBinder next
      have hnext (name : Bytes) : Finishes n (next name) := by
        refine (finishes_accept _).bind fun _ => (finishes_accept _).bind fun hasParams => ?_
        extract_lets -underBinder next
        have hnext (params : List InterfaceItem × List Comment) : Finishes n (next params) :=
          inferInstance
        clear_value next
        infer_instance
      clear_value next
      infer_instance
    clear_value next
    infer_instance
  clear_value next
  infer_instance

end

namespace Decl

section

variable {n : Nat}

instance finishes_parseObjectClass : Finishes n parseObjectClass := by
  refine finishes_advance.bind fun word => ?_
  split
  case h_3 =>
    refine (finishes_expect _ _ _).bind fun t => ?_
    split <;> infer_instance
  all_goals infer_instance

instance finishes_parseObject (t : RowTrivia) : Finishes n (parseObject t) := by
  rw [parseObject]
  infer_instance

instance finishes_parseType (t : RowTrivia) : Finishes n (parseType t) := by
  rw [parseType]
  infer_instance

instance finishes_parseSubtype (t : RowTrivia) : Finishes n (parseSubtype t) := by
  rw [parseSubtype]
  infer_instance

instance finishes_parseAlias (t : RowTrivia) : Finishes n (parseAlias t) := by
  rw [parseAlias]
  infer_instance

instance finishes_parseComponent (t : RowTrivia) : Finishes n (parseComponent t) := by
  rw [parseComponent]
  infer_instance

instance finishes_parseAttribute (t : RowTrivia) : Finishes n (parseAttribute t) := by
  rw [parseAttribute]
  infer_instance

instance finishes_parseEntity : Finishes n parseEntity := by
  rw [parseEntity]
  infer_instance

instance finishes_parseAttributeSpec (t : RowTrivia) : Finishes n (parseAttributeSpec t) := by
  refine finishes_skip.bind fun _ => finishes_ident.bind fun name => ?_
  refine (finishes_keyword _).bind fun _ => (finishes_sepByComma parseEntity).bind fun entities => ?_
  refine (finishes_expect_ ..).bind fun _ => finishes_current.bind fun t => ?_
  infer_instance

instance finishes_parseRawN (fuel : Nat) (depth : Int) : Finishes fuel (parseRawN fuel depth) := by
  induction fuel generalizing depth with
  | zero => exact .zero
  | succ fuel ih =>
      rw [parseRawN]
      refine .kind fun k => ?_
      by_cases hk : k = .eof
      · rw [if_pos (by simp [hk])]
        exact (finishes_pure []).finishesAt
      · refine .ite (finishes_pure []).finishesAt (Takes.finishesAt ?_)
        exact (takes_advance hk).bind fun t => inferInstance

instance finishes_parseRaw (t : RowTrivia) : Finishes n (parseRaw t) := by
  have htokens : Finishes n (fun s => parseRawN s.size 0 s) :=
    .sized fun m _ => finishes_parseRawN m 0
  rw [parseRaw]
  infer_instance

instance finishes_skipProtectedN (fuel : Nat) : Finishes fuel (skipProtectedN fuel) := by
  induction fuel with
  | zero => exact .zero
  | succ fuel ih =>
      rw [skipProtectedN]
      refine .isAtEnd (finishes_pure ()) fun k hk => ?_
      refine .look (fun _ => rfl) fun atEnd => .look (fun _ => rfl) fun next => ?_
      refine .ite (Finishes.finishesAt inferInstance) (Takes.finishesAt ?_)
      exact (takes_skip hk).bind fun _ => ih

instance finishes_parseTypeOrRaw : Finishes n parseTypeOrRaw := by
  have hskip : Finishes n (fun s => skipProtectedN s.size s) :=
    .sized fun m _ => finishes_skipProtectedN m
  refine (finishes_kindAhead _).bind fun k => ?_
  split <;> infer_instance

/-! ### One level of nesting -/

variable (part : Parse (List Decl)) [hpart : Finishes n part]

instance finishes_parseSubprogram (t : RowTrivia) : Finishes (n + 1) (parseSubprogram part t) := by
  refine finishes_subprogramSpec.bind fun spec => .accept (by decide) ?_ ?_
  · refine hpart.bind fun decls => finishes_tail.bind fun declTail => ?_
    refine (finishes_keyword _).bind fun _ => (SeqStmt.finishes_parseBlock n).bind fun stmts => ?_
    refine finishes_tail.bind fun tail => (finishes_keyword _).bind fun _ => ?_
    refine (finishes_isAtAny _).bind fun isKind => ?_
    extract_lets -underBinder next
    have hnext (u : Unit) : Finishes n (next u) := inferInstance
    clear_value next
    infer_instance
  · refine Finishes.bind finishes_semicolon fun _ => inferInstance

instance finishes_parseWith : Finishes (n + 1) (parseWith part) := by
  refine finishes_kind.bind fun k => ?_
  split <;> infer_instance

end

/-! ### All levels -/

instance finishes_parsePartN (n : Nat) : Finishes n (parsePartN n) := by
  induction n with
  | zero => exact .zero
  | succ n ih =>
      rw [parsePartN]
      infer_instance

instance finishes_parsePart (n : Nat) : Finishes n parsePart :=
  .sized fun m _ => finishes_parsePartN m

end Decl

/-! ## Concurrent statements -/

namespace ConcStmt

section

variable {n : Nat}

instance finishes_parseSensitivity : Finishes n parseSensitivity := by
  refine (finishes_accept _).bind fun hasList => ?_
  split
  · infer_instance
  · refine (finishes_accept? _).bind fun t => ?_
    split <;> infer_instance

instance finishes_parseProcess (h : Head) (postponed : Bool) :
    Finishes n (parseProcess h postponed) := by
  rw [parseProcess]
  infer_instance

instance finishes_parseMaps (h : Head) (inst : Instantiation) : Finishes n (parseMaps h inst) := by
  rw [parseMaps]
  infer_instance

instance finishes_parseInstance (h : Head) : Finishes n (parseInstance h) := by
  rw [parseInstance]
  infer_instance

instance finishes_parseSelectedArm : Finishes n parseSelectedArm := by
  rw [parseSelectedArm]
  infer_instance

instance finishes_parseSelected (h : Head) : Finishes n (parseSelected h) := by
  rw [parseSelected]
  infer_instance

instance finishes_skipBlockN (fuel : Nat) (depth : Int) (afterEnd : Bool) :
    Finishes fuel (skipBlockN fuel depth afterEnd) := by
  induction fuel generalizing depth afterEnd with
  | zero => exact .zero
  | succ fuel ih =>
      rw [skipBlockN]
      refine .kind fun k => ?_
      by_cases hk : k = .eof
      · rw [if_pos (beq_iff_eq.mpr hk)]
        exact (finishes_pure ()).finishesAt
      · have hskip (depth : Int) (afterEnd : Bool) :
            FinishesAt fuel k (skip >>= fun _ => skipBlockN fuel depth afterEnd) :=
          ((takes_skip hk).bind fun _ => ih depth afterEnd).finishesAt
        rw [if_neg (mt beq_iff_eq.mp hk)]
        refine .ite (hskip _ _) (.look (fun _ => rfl) fun next => .ite ?_ (hskip _ _))
        exact .ite (Finishes.finishesAt inferInstance) (hskip _ _)

instance finishes_parseNamed (h : Head) : Finishes n (parseNamed h) := by
  rw [parseNamed]
  infer_instance

instance finishes_checkGenerateLabel (h : Head) : Finishes n (checkGenerateLabel h) := by
  rw [checkGenerateLabel]
  infer_instance

theorem kind_checkGenerateLabel (h : Head) (s : ParseState) :
    (checkGenerateLabel h s).2.kind = s.kind := by
  rw [checkGenerateLabel]
  split <;> rfl

/-! ### One level of nesting -/

variable (block : Parse (List ConcStmt)) [hblock : Finishes n block]

instance finishes_parseBody : Finishes n (parseBody block) := by
  rw [parseBody]
  infer_instance

theorem takes_parseForGenerate (h : Head) : Takes n .kwFor (parseForGenerate block h) := by
  refine .after (finishes_checkGenerateLabel h) (kind_checkGenerateLabel h) fun _ => ?_
  exact (takes_skip (by decide)).bind fun _ => inferInstance

instance finishes_parseCondBranch : Finishes n (parseCondBranch block) := by
  rw [parseCondBranch]
  infer_instance

theorem takes_parseIfGenerate (h : Head) : Takes n .kwIf (parseIfGenerate block h) := by
  have hothers : Finishes n (fun s => afterEachN .kwElsif (parseCondBranch block) s.size s) :=
    finishes_afterEach (by decide) _
  refine .after (finishes_checkGenerateLabel h) (kind_checkGenerateLabel h) fun _ => ?_
  exact (takes_skip (by decide)).bind fun _ => inferInstance

instance finishes_parseWith : Finishes (n + 1) (parseWith block) := by
  have hskip : Finishes (n + 1) (fun s => skipBlockN s.size 0 false s) :=
    .sized fun m _ => finishes_skipBlockN m 0 false
  refine finishes_rowTrivia.bind fun trivia => finishes_parseLabel.bind fun label => ?_
  refine (finishes_accept _).bind fun postponed => .kind fun k => ?_
  split
  case h_4 => exact (takes_parseForGenerate block _).map.finishesAt
  case h_5 => exact (takes_parseIfGenerate block _).map.finishesAt
  all_goals exact Finishes.finishesAt inferInstance

end

/-! ### All levels -/

instance finishes_parseBlockN (n : Nat) : Finishes n (parseBlockN n) := by
  induction n with
  | zero => exact .zero
  | succ n ih =>
      rw [parseBlockN]
      infer_instance

instance finishes_parseBlock (n : Nat) : Finishes n parseBlock :=
  .sized fun m _ => finishes_parseBlockN m

end ConcStmt

/-! ## Design units and files -/

section

variable {n : Nat}

instance finishes_parseLibrary : Finishes n ContextItem.parseLibrary := by
  rw [ContextItem.parseLibrary]
  infer_instance

namespace DesignUnit

instance finishes_close (t : RowTrivia) (context : List ContextItem) (name : Bytes)
    (body : UnitBody) (words : List Kind) : Finishes n (close t context name body words) := by
  rw [close]
  infer_instance

instance finishes_parseEntity (context : List ContextItem) : Finishes n (parseEntity context) := by
  rw [parseEntity]
  infer_instance

instance finishes_parseArchitecture (context : List ContextItem) :
    Finishes n (parseArchitecture context) := by
  rw [parseArchitecture]
  infer_instance

instance finishes_parsePackage (context : List ContextItem) :
    Finishes n (parsePackage context) := by
  rw [parsePackage]
  infer_instance

instance finishes_parsePackageBody (context : List ContextItem) :
    Finishes n (parsePackageBody context) := by
  rw [parsePackageBody]
  infer_instance

end DesignUnit

namespace DesignFile

instance finishes_resyncN (fuel : Nat) : Finishes fuel (DesignFile.resyncN fuel) := by
  induction fuel with
  | zero => exact .zero
  | succ fuel ih =>
      refine ⟨fun s hs => ?_⟩
      rw [DesignFile.resyncN]
      change ((if s.kind == .eof || (starts.contains s.kind && s.atLineStart) then pure ()
        else skip >>= fun _ => DesignFile.resyncN fuel : Parse Unit) s).2.Live s.size
      by_cases hk : s.kind = .eof
      · rw [if_pos (by simp [hk])]
        exact hs.self
      · split
        · exact hs.self
        · exact (((takes_skip hk).bind fun _ => ih).finishesAt).run s hs rfl

instance finishes_parseStep (context : List ContextItem) : Finishes n (parseStep context) := by
  have hresync : Finishes n (fun s => DesignFile.resyncN s.size s) :=
    .sized fun m _ => finishes_resyncN m
  refine finishes_kind.bind fun k => ?_
  split <;> infer_instance

instance finishes_parseUnitsN (fuel : Nat) (context : List ContextItem) :
    Finishes fuel (parseUnitsN fuel context) := by
  induction fuel generalizing context with
  | zero => exact .zero
  | succ fuel ih =>
      rw [parseUnitsN]
      refine .isAtEnd (finishes_pure _) fun k hk => ?_
      have hrest (step : Option DesignUnit × List ContextItem) : Finishes fuel (do
          let rest ← parseUnitsN fuel step.2
          return (step.1.toList ++ rest.1, rest.2)) := inferInstance
      exact FinishesAt.forced hk (finishes_parseStep context) hrest

/-- Reading a whole source never gives up. -/
instance finishes_parseTokens : Finishes n parseTokens := by
  have hunits : Finishes n (fun s => parseUnitsN s.size [] s) :=
    .sized fun m _ => finishes_parseUnitsN m []
  rw [parseTokens]
  infer_instance

end DesignFile

end

end VhdlStyle
