import VhdlStyle.Proofs.Parsing.Yields

/-! # Statements, declarations and units hold words in code

The instances follow the parser from subtypes to whole files. -/

namespace VhdlStyle

open Parse

set_option synthInstance.maxSize 2000

/-! ## Subtypes and lists -/

instance yields_parseIndex : Yields Constraint.parseIndex := by
  rw [Constraint.parseIndex]
  infer_instance

instance yields_subtypeIndication : Yields SubtypeIndication.parse := by
  refine Expr.yields_parseTypeMark.bind fun first hfirst => (yields_isAtAny _).bind fun _ _ => ?_
  extract_lets -underBinder next
  have hnext (pair : Option Expr × Expr) (hpair : Printable pair) : Yields (next pair) := by
    obtain ⟨resolution, mark⟩ := pair
    obtain ⟨hresolution, hmark⟩ := hpair.of_pair
    refine yields_kind.bind fun k _ => ?_
    split <;> infer_instance
  clear_value next
  split
  · exact Expr.yields_parseTypeMark.bind fun mark hmark => hnext _ inferInstance
  · exact hnext _ inferInstance

instance yields_parseDefault : Yields parseDefault := by
  rw [parseDefault]
  infer_instance

namespace InterfaceItem

instance yields_parseGeneric (t : RowTrivia) : Yields (parseGeneric t) := by
  refine (yields_accept? _).bind fun o ho => ?_
  cases o with
  | none => infer_instance
  | some word =>
      have hword := ho.of_some
      infer_instance

instance yields_parsePort (t : RowTrivia) : Yields (parsePort t) := by
  refine (yields_isAtAny _).bind fun _ _ => ?_
  extract_lets -underBinder next
  have hnext (objectClass : {c : Bytes // HasWords.InCode c}) : Yields (next objectClass) :=
    inferInstance
  clear_value next
  infer_instance

end InterfaceItem

namespace InterfaceList

instance yields_parseClause (word : Bytes) (row : RowTrivia → Parse InterfaceItem)
    [∀ t, Yields (row t)] : Yields (parseClause word row) := by
  rw [parseClause]
  infer_instance

instance yields_parseGenerics : Yields parseGenerics := by
  rw [parseGenerics]
  infer_instance

instance yields_parsePorts : Yields parsePorts := by
  rw [parsePorts]
  infer_instance

end InterfaceList

namespace MapList

instance yields_parseItem (t : RowTrivia) : Yields (parseItem t) := by
  rw [parseItem]
  infer_instance

instance yields_parse : Yields parse := by
  rw [parse]
  infer_instance

end MapList

/-! ## Sequential statements -/

instance yields_parseLabel : Yields Head.parseLabel := by
  rw [Head.parseLabel]
  infer_instance

instance yields_finish (h : Head) [hh : Printable h] : Yields h.finish := by
  rw [Head.finish]
  infer_instance

instance yields_parseElement : Yields CondWaveform.parseElement := by
  refine Expr.yields_parse.bind fun x _ => (yields_accept? _).bind fun o ho => ?_
  cases o with
  | none => infer_instance
  | some word =>
      have hword := ho.of_some
      infer_instance

instance yields_parseWaveform : Yields CondWaveform.parseWaveform := by
  refine (yields_accept? _).bind fun o ho => ?_
  cases o with
  | none => infer_instance
  | some word =>
      have hword := ho.of_some
      infer_instance

instance yields_parseArmsN (n : Nat) : Yields (CondWaveform.parseArmsN n) := by
  induction n with
  | zero =>
      rw [CondWaveform.parseArmsN]
      infer_instance
  | succ n ih =>
      rw [CondWaveform.parseArmsN]
      infer_instance

instance yields_parseArms : Yields CondWaveform.parseArms :=
  yields_sized (f := CondWaveform.parseArmsN)

instance yields_assertion (postponed : Bool) : Yields (Assertion.parse postponed) := by
  rw [Assertion.parse]
  infer_instance

namespace SeqStmt

section

variable (h : Head) [hh : Printable h]

instance yields_parseLoopControl : Yields (parseLoopControl h) := by
  rw [parseLoopControl]
  infer_instance

instance yields_parseReturn : Yields (parseReturn h) := by
  rw [parseReturn]
  infer_instance

instance yields_parseWait : Yields (parseWait h) := by
  refine yields_skip.bind fun _ _ => (yields_accept _).bind fun _ _ => ?_
  extract_lets -underBinder next
  have hnext (signals : {xs : List Expr // HasWords.InCode xs}) : Yields (next signals) :=
    inferInstance
  clear_value next
  infer_instance

instance yields_parseReport : Yields (parseReport h) := by
  rw [parseReport]
  infer_instance

instance yields_parseNamed : Yields (parseNamed h) := by
  rw [parseNamed]
  infer_instance

instance yields_parseScheme : Yields parseScheme := by
  rw [parseScheme]
  infer_instance

variable (block : Parse (List SeqStmt)) [hblock : Yields block]

instance yields_parseBranch (cond : Option Expr) [hcond : Printable cond] :
    Yields (parseBranch block cond) := by
  rw [parseBranch]
  infer_instance

instance yields_parseCondBranch : Yields (parseCondBranch block) := by
  rw [parseCondBranch]
  infer_instance

instance yields_parseIf : Yields (parseIf block h) := by
  rw [parseIf]
  infer_instance

instance yields_parseAlt : Yields (parseAlt block) := by
  rw [parseAlt]
  infer_instance

instance yields_parseAltsN (n : Nat) : Yields (parseAltsN block n) := by
  induction n with
  | zero =>
      rw [parseAltsN]
      infer_instance
  | succ n ih =>
      rw [parseAltsN]
      infer_instance

instance yields_parseCase : Yields (parseCase block h) := by
  have halts : Yields (fun s => parseAltsN block s.size s) := yields_sized (f := parseAltsN block)
  refine yields_skip.bind fun _ _ => (yields_accept _).bind fun matching _ => ?_
  refine Expr.yields_parse.bind fun selector _ => (yields_keyword _).bind fun _ _ => ?_
  refine halts.bind fun alts _ => yields_tail.bind fun tail _ => ?_
  refine (yields_keyword _).bind fun _ _ => (yields_keyword _).bind fun _ _ => ?_
  extract_lets -underBinder next
  have hnext (u : Unit) : Yields (next u) := inferInstance
  clear_value next
  infer_instance

instance yields_parseLoop : Yields (parseLoop block h) := by
  rw [parseLoop]
  infer_instance

instance yields_parseWith : Yields (parseWith block) := by
  refine yields_rowTrivia.bind fun t _ => yields_parseLabel.bind fun label _ => ?_
  refine yields_kind.bind fun k _ => ?_
  split <;> infer_instance

end

instance yields_parseBlockN (n : Nat) : Yields (parseBlockN n) := by
  induction n with
  | zero =>
      rw [parseBlockN]
      infer_instance
  | succ n ih =>
      rw [parseBlockN]
      infer_instance

instance yields_parseBlock : Yields parseBlock := yields_sized (f := parseBlockN)

end SeqStmt

/-! ## Declarations -/

instance yields_useClause : Yields UseClause.parse := by
  rw [UseClause.parse]
  infer_instance

namespace TypeDef

instance yields_parseLiteral : Yields parseLiteral := by
  refine (yields_accept? _).bind fun o ho => ?_
  cases o with
  | none => infer_instance
  | some t =>
      have ht := ho.of_some
      infer_instance

instance yields_parseUnit : Yields parseUnit := by
  rw [parseUnit]
  infer_instance

instance yields_parseUnits : Yields parseUnits := by
  rw [parseUnits]
  infer_instance

instance yields_parseField : Yields parseField := by
  rw [parseField]
  infer_instance

instance yields_parse : Yields parse := by
  refine yields_kind.bind fun k _ => ?_
  split <;> infer_instance

end TypeDef

instance yields_subprogramSpec : Yields SubprogramSpec.parse := by
  refine (yields_isAtAny _).bind fun _ _ => ?_
  extract_lets -underBinder next
  have hnext (purity : {w : Bytes // HasWords.InCode w}) : Yields (next purity) := by
    refine (yields_isAtAny _).bind fun _ _ => ?_
    extract_lets -underBinder next
    have hnext (kind : {w : Bytes // HasWords.InCode w}) : Yields (next kind) := by
      refine (yields_isAt _).bind fun _ _ => ?_
      extract_lets -underBinder next
      have hnext (name : {w : Bytes // HasWords.InCode w}) : Yields (next name) := by
        refine (yields_accept _).bind fun _ _ => (yields_accept _).bind fun _ _ => ?_
        extract_lets -underBinder next
        have hnext (params : {l : List InterfaceItem × List Comment // HasWords.InCode l}) :
            Yields (next params) := by
          obtain ⟨⟨params, tail⟩, hparams, -⟩ := params
          have hparams : Printable params := ⟨hparams⟩
          infer_instance
        clear_value next
        infer_instance
      clear_value next
      infer_instance
    clear_value next
    infer_instance
  clear_value next
  infer_instance

namespace Decl

/-- Two reserved words. -/
theorem printable_pairOfKeywords {t u : Token} (ht : Printable t) (hu : Printable u)
    (htk : t.kind ∈ Kind.keywords) (huk : u.kind ∈ Kind.keywords) :
    Printable (List.flatten [t.text, " ", u.text]) :=
  ⟨Bytes.inCode_of_isPlain (Bytes.isPlain_pair (Token.InCode.isPlain ht.words htk)
    (Token.InCode.isPlain hu.words huk))⟩

instance yields_parseObjectClass : Yields parseObjectClass := by
  refine yields_advance.bind fun word hword => ?_
  split
  case h_3 hkind =>
    refine .expect (fun t ht hvariable => ?_) inferInstance
    have hshared := printable_pairOfKeywords hword ht (by rw [hkind]; decide)
      (by rw [hvariable]; decide)
    infer_instance
  all_goals infer_instance

instance yields_parseObject (t : RowTrivia) : Yields (parseObject t) := by
  refine yields_parseObjectClass.bind fun pair hpair => ?_
  obtain ⟨objectClass, word⟩ := pair
  obtain ⟨-, hword⟩ := hpair.of_pair
  infer_instance

instance yields_parseType (t : RowTrivia) : Yields (parseType t) := by
  rw [parseType]
  infer_instance

instance yields_parseSubtype (t : RowTrivia) : Yields (parseSubtype t) := by
  rw [parseSubtype]
  infer_instance

instance yields_parseAlias (t : RowTrivia) : Yields (parseAlias t) := by
  rw [parseAlias]
  infer_instance

instance yields_parseComponent (t : RowTrivia) : Yields (parseComponent t) := by
  rw [parseComponent]
  infer_instance

instance yields_parseAttribute (t : RowTrivia) : Yields (parseAttribute t) := by
  rw [parseAttribute]
  infer_instance

instance yields_parseEntity : Yields parseEntity := by
  rw [parseEntity]
  infer_instance

instance yields_parseAttributeSpec (t : RowTrivia) : Yields (parseAttributeSpec t) := by
  refine yields_skip.bind fun _ _ => yields_ident.bind fun name _ => ?_
  refine (yields_keyword _).bind fun _ _ => (yields_sepBy _ parseEntity).bind fun entities _ => ?_
  refine (yields_expect_ _ _ _).bind fun _ _ => yields_current.bind fun word _ => ?_
  infer_instance

/-! ### Declarations that are kept as their tokens -/

instance printable_rawToken {text : Bytes} {isKeyword isIdent : Bool} [h : Printable text] :
    Printable (RawToken.mk text isKeyword isIdent) := ⟨h.words⟩

instance yields_parseRawN (n : Nat) (depth : Int) : Yields (parseRawN n depth) := by
  induction n generalizing depth with
  | zero =>
      rw [parseRawN]
      infer_instance
  | succ n ih =>
      rw [parseRawN]
      infer_instance

/-- The first of the tokens is the current one. -/
theorem parseRawN_head (n : Nat) {s : ParseState} (hs : s.InCode)
    (hk : s.kind ∉ .eof :: Lexeme.delimiterKinds) :
    ∀ t ∈ (parseRawN n 0 s).1.head?, t.text.startsWord = true := by
  have hword : s.current.text.startsWord = true := hs.current.startsWord hk
  cases n with
  | zero => simp [parseRawN, giveUp]
  | succ n =>
      intro t ht
      rw [parseRawN] at ht
      change t ∈ ((if (s.kind == .eof || ((0 : Int) == 0 && s.kind == .semicolon)) = true then
          pure [] else (do
            let u ← advance
            return ⟨u.text, u.isKeyword, u.isIdent⟩ :: (← parseRawN n _)) :
        Parse (List RawToken)) s).1.head? at ht
      split at ht
      · change none = some t at ht
        simp at ht
      · obtain rfl := Option.mem_some_iff.mp ht
        change (advance s).1.text.startsWord = true
        rw [advance_fst]
        exact hword

theorem yieldsAt_parseRaw {k : Kind} (hk : k ∉ .eof :: Lexeme.delimiterKinds) (t : RowTrivia) :
    YieldsAt k (parseRaw t) := by
  have hrest (tokens : List RawToken) (htokens : ∀ u ∈ tokens, u.InCode)
      (hfirst : ∀ u ∈ tokens.head?, u.text.startsWord = true) :
      Yields (do
        semicolon
        return .raw (← withInline t) tokens : Parse Decl) := by
    have hraw (t : RowTrivia) : Printable (Decl.raw t tokens) := ⟨htokens, hfirst⟩
    infer_instance
  have hmore (s : ParseState) (hs : s.InCode) (hkind : s.kind = k) :=
    hrest _ ((yields_parseRawN s.size 0).yields s hs) (parseRawN_head s.size hs (hkind ▸ hk))
  have hkeeps (s : ParseState) (hs : s.InCode) : (parseRawN s.size 0 s).2.InCode :=
    (yields_parseRawN s.size 0).keeps s hs
  exact ⟨fun s hs hkind => (hmore s hs hkind).yields _ (hkeeps s hs),
    fun s hs hkind => (hmore s hs hkind).keeps _ (hkeeps s hs)⟩

theorem yieldsAt_rawRow {k : Kind} (hk : k ∉ .eof :: Lexeme.delimiterKinds) :
    YieldsAt k (do some <$> parseRaw (← rowTrivia)) :=
  .bind yields_rowTrivia kind_rowTrivia fun t _ =>
    (yieldsAt_parseRaw hk t).map fun _ _ => printable_some

instance yields_skipProtectedN (n : Nat) : Yields (skipProtectedN n) := by
  induction n with
  | zero =>
      rw [skipProtectedN]
      infer_instance
  | succ n ih =>
      rw [skipProtectedN]
      infer_instance

theorem yieldsAt_parseTypeOrRaw : YieldsAt .kwType parseTypeOrRaw := by
  refine .bind (yields_kindAhead 3) (fun _ => rfl) fun k _ => ?_
  split
  · exact yieldsAt_rawRow (by decide)
  · exact Yields.yieldsAt inferInstance _
  · exact Yields.yieldsAt inferInstance _

section

variable (part : Parse (List Decl)) [hpart : Yields part]

instance yields_parseSubprogram (t : RowTrivia) : Yields (parseSubprogram part t) := by
  refine yields_subprogramSpec.bind fun spec _ => (yields_accept _).bind fun _ _ => ?_
  split
  · infer_instance
  · refine hpart.bind fun decls _ => yields_tail.bind fun declTail _ => ?_
    refine (yields_keyword _).bind fun _ _ => SeqStmt.yields_parseBlock.bind fun stmts _ => ?_
    refine yields_tail.bind fun tail _ => (yields_keyword _).bind fun _ _ => ?_
    refine (yields_isAtAny _).bind fun _ _ => ?_
    extract_lets -underBinder next
    have hnext (u : Unit) : Yields (next u) := inferInstance
    clear_value next
    infer_instance

instance yields_parseWith : Yields (parseWith part) := by
  refine Yields.of_kind fun k => ?_
  split
  case h_5 => exact yieldsAt_parseTypeOrRaw
  any_goals exact Yields.yieldsAt inferInstance _
  all_goals exact yieldsAt_rawRow (by decide)

end

instance yields_parsePartN (n : Nat) : Yields (parsePartN n) := by
  induction n with
  | zero =>
      rw [parsePartN]
      infer_instance
  | succ n ih =>
      rw [parsePartN]
      infer_instance

instance yields_parsePart : Yields parsePart := yields_sized (f := parsePartN)

end Decl

/-! ## Concurrent statements -/

namespace ConcStmt

instance yields_parseSensitivity : Yields parseSensitivity := by
  refine (yields_accept _).bind fun _ _ => ?_
  split
  · infer_instance
  · refine (yields_accept? _).bind fun o ho => ?_
    cases o with
    | none => infer_instance
    | some word =>
        have hword := ho.of_some
        infer_instance

section

variable (h : Head) [hh : Printable h]

instance yields_parseProcess (postponed : Bool) : Yields (parseProcess h postponed) := by
  refine yields_skip.bind fun _ _ => yields_parseSensitivity.bind fun sensitivity _ => ?_
  refine (yields_accept _).bind fun hasIs _ => Decl.yields_parsePart.bind fun decls _ => ?_
  refine yields_tail.bind fun declTail _ => (yields_keyword _).bind fun _ _ => ?_
  refine SeqStmt.yields_parseBlock.bind fun stmts _ => yields_tail.bind fun tail _ => ?_
  infer_instance

instance yields_parseMaps (inst : Instantiation) [hinst : Printable inst] :
    Yields (parseMaps h inst) := by
  have hunit : Printable inst.unit := ⟨hinst.words.unit⟩
  have hkind : Printable inst.unitKind := ⟨hinst.words.unitKind⟩
  have harch : Printable inst.arch := ⟨hinst.words.arch⟩
  have hmaps (u : Unit) : Yields (do
      let genericMap ← if ← isAt .kwGeneric then pure (some (← MapList.parse)) else pure none
      let portMap ← if ← isAt .kwPort then pure (some (← MapList.parse)) else pure none
      return .instantiation (← h.finish) { inst with genericMap, portMap } : Parse ConcStmt) :=
    inferInstance
  rw [parseMaps]
  split
  · exact (yields_fault _ _).bind fun u _ => hmaps u
  · exact hmaps ()

instance yields_parseInstance : Yields (parseInstance h) := by
  rw [parseInstance]
  infer_instance

instance yields_parseSelectedArm : Yields parseSelectedArm := by
  rw [parseSelectedArm]
  infer_instance

instance yields_parseSelected : Yields (parseSelected h) := by
  rw [parseSelected]
  infer_instance

instance yields_skipBlockN (n : Nat) (depth : Int) (afterEnd : Bool) :
    Yields (skipBlockN n depth afterEnd) := by
  induction n generalizing depth afterEnd with
  | zero =>
      rw [skipBlockN]
      infer_instance
  | succ n ih =>
      rw [skipBlockN]
      infer_instance

instance yields_parseNamed : Yields (parseNamed h) := by
  rw [parseNamed]
  infer_instance

instance yields_checkGenerateLabel (h : Head) : Yields (checkGenerateLabel h) := by
  rw [checkGenerateLabel]
  infer_instance

variable (block : Parse (List ConcStmt)) [hblock : Yields block]

instance yields_parseBody : Yields (parseBody block) := by
  refine (yields_isAtAny _).bind fun _ _ => ?_
  extract_lets -underBinder next
  have hnext (decls : List Decl) (hasBegin : Bool) (hdecls : Printable decls)
      (hfront : hasBegin = false → decls = []) : Yields (next (decls, hasBegin)) := by
    refine hblock.bind fun stmts hstmts => yields_tail.bind fun tail _ => ?_
    have hbody : Printable (GenerateBody.mk decls hasBegin stmts tail) :=
      ⟨hdecls.words, allInCode_iff.mpr hstmts.words, hfront⟩
    infer_instance
  clear_value next
  split
  · refine Decl.yields_parsePart.bind fun decls hdecls => (yields_keyword _).bind fun _ _ => ?_
    exact hnext decls true hdecls (by simp)
  · exact (yields_accept _).bind fun hasBegin _ => hnext [] hasBegin printable_nil (fun _ => rfl)

instance yields_parseForGenerate : Yields (parseForGenerate block h) := by
  rw [parseForGenerate]
  infer_instance

instance yields_parseCondBranch : Yields (parseCondBranch block) := by
  rw [parseCondBranch]
  infer_instance

instance yields_parseIfGenerate : Yields (parseIfGenerate block h) := by
  refine (yields_checkGenerateLabel h).bind fun _ _ => yields_skip.bind fun _ _ => ?_
  refine (yields_parseCondBranch block).bind fun first _ => ?_
  refine (yields_sized (f := afterEachN .kwElsif (parseCondBranch block))).bind fun others _ => ?_
  infer_instance

instance yields_parseWith : Yields (parseWith block) := by
  have hskip : Yields (fun s => skipBlockN s.size 0 false s) :=
    yields_sized (f := fun n => skipBlockN n 0 false)
  refine yields_rowTrivia.bind fun t _ => yields_parseLabel.bind fun label _ => ?_
  refine (yields_accept _).bind fun postponed _ => yields_kind.bind fun k _ => ?_
  split <;> infer_instance

end

instance yields_parseBlockN (n : Nat) : Yields (parseBlockN n) := by
  induction n with
  | zero =>
      rw [parseBlockN]
      infer_instance
  | succ n ih =>
      rw [parseBlockN]
      infer_instance

instance yields_parseBlock : Yields parseBlock := yields_sized (f := parseBlockN)

end ConcStmt

/-! ## Design units and files -/

instance yields_parseLibrary : Yields ContextItem.parseLibrary := by
  rw [ContextItem.parseLibrary]
  infer_instance

namespace DesignUnit

section

variable (context : List ContextItem) [hcontext : Printable context]

instance yields_close (t : RowTrivia) (name : Bytes) (body : UnitBody) (words : List Kind)
    [hname : Printable name] [hbody : Printable body] :
    Yields (close t context name body words) := by
  rw [close]
  infer_instance

instance yields_parseEntity : Yields (parseEntity context) := by
  refine yields_rowTrivia.bind fun t _ => yields_skip.bind fun _ _ => ?_
  refine yields_ident.bind fun name _ => (yields_keyword _).bind fun _ _ => ?_
  refine InterfaceList.yields_parseGenerics.bind fun generics hgenerics => ?_
  refine InterfaceList.yields_parsePorts.bind fun ports hports => ?_
  refine Decl.yields_parsePart.bind fun decls hdecls => (yields_accept _).bind fun hasBegin _ => ?_
  extract_lets -underBinder next
  have hnext (stmts : List ConcStmt) (hstmts : Printable stmts)
      (hfront : hasBegin = false → stmts = []) : Yields (next stmts) := by
    have hbody : Printable (UnitBody.entity generics ports decls hasBegin stmts) :=
      ⟨hgenerics.words, hports.words, hdecls.words, hstmts.words, hfront⟩
    infer_instance
  clear_value next
  split
  · rename_i hbegin
    refine ConcStmt.yields_parseBlock.bind fun stmts hstmts => hnext stmts hstmts ?_
    simp [hbegin]
  · exact hnext [] printable_nil fun _ => rfl

instance yields_parseArchitecture : Yields (parseArchitecture context) := by
  rw [parseArchitecture]
  infer_instance

instance yields_parsePackage : Yields (parsePackage context) := by
  rw [parsePackage]
  infer_instance

instance yields_parsePackageBody : Yields (parsePackageBody context) := by
  rw [parsePackageBody]
  infer_instance

end

end DesignUnit

namespace DesignFile

instance yields_resyncN (n : Nat) : Yields (resyncN n) := by
  induction n with
  | zero =>
      rw [resyncN]
      infer_instance
  | succ n ih =>
      rw [resyncN]
      infer_instance

instance yields_parseStep (context : List ContextItem) [hcontext : Printable context] :
    Yields (parseStep context) := by
  have hresync : Yields (fun s => resyncN s.size s) := yields_sized (f := resyncN)
  refine yields_kind.bind fun k _ => ?_
  split <;> infer_instance

instance yields_parseUnitsN (n : Nat) (context : List ContextItem) [hcontext : Printable context] :
    Yields (parseUnitsN n context) := by
  induction n generalizing context with
  | zero =>
      rw [parseUnitsN]
      infer_instance
  | succ n ih =>
      rw [parseUnitsN]
      refine (yields_isAt _).bind fun _ _ => ?_
      split
      · infer_instance
      · have hrest (unit : Option DesignUnit) (context : List ContextItem) [Printable unit]
            [Printable context] : Yields (do
            let (units, context) ← parseUnitsN n context
            return (unit.toList ++ units, context) : Parse (List DesignUnit × List ContextItem)) := by
          refine (ih context).bind fun rest hrest => ?_
          obtain ⟨units, context⟩ := rest
          obtain ⟨hunits, hcontext⟩ := hrest.of_pair
          infer_instance
        have hstep (before : ParseState) (step : Option DesignUnit × List ContextItem)
            (hstep : Printable step) : Yields (do
            if (← get).size == before.size then skip
            let (units, context) ← parseUnitsN n step.2
            return (step.1.toList ++ units, context) :
              Parse (List DesignUnit × List ContextItem)) := by
          obtain ⟨unit, context⟩ := step
          obtain ⟨hunit, hcontext⟩ := hstep.of_pair
          infer_instance
        have hround (before : ParseState) :=
          (yields_parseStep context).bind (hstep before)
        exact yields_get

instance yields_parseTokens : Yields parseTokens := by
  refine (yields_sized (f := fun n => parseUnitsN n [])).bind fun rest hrest => ?_
  obtain ⟨units, context⟩ := rest
  obtain ⟨hunits, -⟩ := hrest.of_pair
  infer_instance

end DesignFile

end VhdlStyle
