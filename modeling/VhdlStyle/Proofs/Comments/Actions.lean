import VhdlStyle.Proofs.Comments.Conservation

/-! # Every parsing action conserves comments

An action that reads a row keeps the comments above the row, and one that reads a construct keeps
those inside it. The actions come in the order of the parser. -/

namespace VhdlStyle

open Parse

/-! ## Interface lists and maps -/

theorem InterfaceItem.moves_parseGeneric (t : RowTrivia) :
    Moves t.above (InterfaceItem.parseGeneric t) fun i => i.trivia.above := by
  unfold InterfaceItem.parseGeneric
  refine .next fun _ => .next fun _ => .next fun _ => .next fun _ => ?_
  exact .next fun _ => .next fun _ => .pure rfl

theorem InterfaceItem.moves_parsePort (t : RowTrivia) :
    Moves t.above (InterfaceItem.parsePort t) fun i => i.trivia.above := by
  unfold InterfaceItem.parsePort
  refine .next fun hasClass => ?_
  extract_lets -underBinder next
  have hnext (objectClass : Bytes) :
      Moves t.above (next objectClass) fun i => i.trivia.above := by
    refine .next fun names => .next fun _ => .next fun hasMode => ?_
    extract_lets -underBinder rest
    have hrest (mode : Bytes) : Moves t.above (rest mode) fun i => i.trivia.above :=
      .next fun _ => .next fun _ => .next fun _ => .pure rfl
    clear_value rest
    exact .ite (.next fun _ => .next hrest) (.next hrest)
  clear_value next
  exact .ite (.next fun _ => .next hnext) (.next hnext)

theorem InterfaceItem.comments_setInline (i : InterfaceItem) (text : Bytes) :
    (i.setInline text).comments = i.trivia.above + RowTrivia.behind text := rfl

theorem InterfaceList.moves_parseClause (word : Bytes) {row : RowTrivia → Parse InterfaceItem}
    (hrow : ∀ t, Moves t.above (row t) fun i => i.trivia.above) :
    Moves 0 (InterfaceList.parseClause word row) InterfaceList.comments := by
  unfold InterfaceList.parseClause
  refine .next fun _ => .next fun _ => ?_
  refine .bind (moves_rows hrow InterfaceItem.comments_setInline) fun items => ?_
  exact .call moves_tail fun tail => .next fun _ => .next fun _ => .pure rfl

theorem InterfaceList.moves_parseGenerics :
    Moves 0 InterfaceList.parseGenerics (anyComments InterfaceList.comments) := by
  unfold InterfaceList.parseGenerics
  refine .next fun atGeneric => .ite ?_ (.pure rfl)
  exact .bind (moves_parseClause _ InterfaceItem.moves_parseGeneric) fun list => .pure rfl

theorem InterfaceList.moves_parsePorts :
    Moves 0 InterfaceList.parsePorts (anyComments InterfaceList.comments) := by
  unfold InterfaceList.parsePorts
  refine .next fun atPort => .ite ?_ (.pure rfl)
  exact .bind (moves_parseClause _ InterfaceItem.moves_parsePort) fun list => .pure rfl

theorem MapList.moves_parseItem (t : RowTrivia) :
    Moves t.above (MapList.parseItem t) fun i => i.trivia.above := by
  unfold MapList.parseItem
  exact .next fun _ => .pure rfl

theorem MapList.comments_setInline (i : MapItem) (text : Bytes) :
    (MapList.setInline i text).comments = i.trivia.above + RowTrivia.behind text := rfl

theorem MapList.moves_parse : Moves 0 MapList.parse MapList.comments := by
  unfold MapList.parse
  refine .next fun _ => .next fun _ => .next fun _ => ?_
  refine .bind (moves_rows moves_parseItem comments_setInline) fun items => ?_
  exact .call moves_tail fun tail => .next fun _ => .pure rfl

/-! ## Sequential statements -/

theorem RowTrivia.comments_withInline (t : RowTrivia) (text : Bytes) :
    ({ t with inline := text } : RowTrivia).comments = t.above + RowTrivia.behind text := rfl

theorem Head.comments_withInline (h : Head) (text : Bytes) :
    (h.withInline text).comments = h.above + RowTrivia.behind text := rfl

theorem Head.moves_finish (h : Head) : Moves h.above h.finish Head.comments := by
  unfold Head.finish
  exact .next fun _ => .call moves_inline fun text => .pure rfl

/-- Whatever else is handed on, the comment behind a statement joins its head. -/
theorem Head.moves_finish_bind {β : Type} {n : Multiset Bytes} {k : β → Multiset Bytes} (h : Head)
    {f : Head → Parse β} (hf : ∀ text, Moves (n + RowTrivia.behind text) (f (h.withInline text)) k) :
    Moves n (h.finish >>= f) k :=
  Moves.next (p := semicolon) (f := fun _ => inline >>= fun text => f (h.withInline text))
    fun _ => .call moves_inline hf

namespace SeqStmt

theorem moves_parseLoopControl (h : Head) : Moves h.above (parseLoopControl h) comments := by
  unfold parseLoopControl
  refine .next fun word => .next fun loopLabel => .next fun hasCond => ?_
  extract_lets -underBinder next
  have hnext (cond : Option Expr) : Moves h.above (next cond) comments :=
    h.moves_finish.bind fun _ => .pure rfl
  clear_value next
  exact .ite (.next fun _ => .next hnext) (.next hnext)

theorem moves_parseReturn (h : Head) : Moves h.above (parseReturn h) comments := by
  unfold parseReturn
  refine .next fun _ => .next fun atEnd => ?_
  extract_lets -underBinder next
  have hnext (value : Option Expr) : Moves h.above (next value) comments :=
    h.moves_finish.bind fun _ => .pure rfl
  clear_value next
  exact .ite (.next hnext) (.next fun _ => .next hnext)

theorem moves_parseWait (h : Head) : Moves h.above (parseWait h) comments := by
  unfold parseWait
  refine .next fun _ => .next fun hasOn => ?_
  extract_lets -underBinder next
  have hnext (signals : List Expr) : Moves h.above (next signals) comments := by
    refine .next fun hasUntil => ?_
    extract_lets -underBinder rest
    have hrest (cond : Option Expr) : Moves h.above (rest cond) comments := by
      refine .next fun hasFor => ?_
      extract_lets -underBinder last
      have hlast (time : Option Expr) : Moves h.above (last time) comments :=
        h.moves_finish.bind fun _ => .pure rfl
      clear_value last
      exact .ite (.next fun _ => .next hlast) (.next hlast)
    clear_value rest
    exact .ite (.next fun _ => .next hrest) (.next hrest)
  clear_value next
  exact .ite (.next hnext) (.next hnext)

theorem moves_parseReport (h : Head) : Moves h.above (parseReport h) comments := by
  unfold parseReport
  refine .next fun _ => .next fun message => .next fun hasSeverity => ?_
  extract_lets -underBinder next
  have hnext (severity : Option Expr) : Moves h.above (next severity) comments :=
    h.moves_finish.bind fun _ => .pure rfl
  clear_value next
  exact .ite (.next fun _ => .next hnext) (.next hnext)

theorem moves_parseNamed (h : Head) : Moves h.above (parseNamed h) (anyComments comments) := by
  unfold parseNamed
  refine .next fun isName => .ite (moves_faultGot fun _ => .next fun _ => .pure (Multiset.zero_le _)) ?_
  refine .next fun target => .next fun isSignal => .ite ?_ (.next fun isVariable => .ite ?_ ?_)
  · exact .next fun _ => h.moves_finish.bind fun _ => .pure rfl
  · exact .next fun _ => h.moves_finish.bind fun _ => .pure rfl
  · exact h.moves_finish.bind fun _ => .pure rfl

section

variable {block : Parse (List SeqStmt)} (hblock : Moves 0 block (VhdlStyle.allComments comments))

include hblock

theorem moves_parseBranch (cond : Option Expr) :
    Moves 0 (parseBranch block cond) IfBranch.comments := by
  unfold parseBranch
  refine hblock.bind fun stmts => .call moves_tail fun tail => .pure ?_
  exact congrArg (· + Comment.texts tail) (allComments_eq stmts).symm

theorem moves_parseCondBranch : Moves 0 (parseCondBranch block) IfBranch.comments := by
  unfold parseCondBranch
  exact .next fun _ => .next fun _ => moves_parseBranch hblock _

theorem moves_parseIf (h : Head) : Moves h.above (parseIf block h) comments := by
  have hbranch := moves_parseCondBranch hblock
  unfold parseIf
  refine .next fun _ => .call hbranch fun first => ?_
  refine .call (.sized (moves_afterEachN hbranch)) fun others => .next fun hasElse => ?_
  extract_lets -underBinder next
  have hnext (last : List IfBranch) :
      Moves (h.above + IfBranch.comments first + VhdlStyle.allComments IfBranch.comments others +
        VhdlStyle.allComments IfBranch.comments last) (next last) comments := by
    refine .next fun endLabel => .call moves_inline fun text => .pure ?_
    change _ = (h.withInline text).comments + IfBranch.allComments _
    rw [IfBranch.allComments_eq, Head.comments_withInline]
    simp only [List.cons_append, allComments_cons, allComments_append]
    abel
  clear_value next
  refine .ite ?_ ?_
  · refine .call (moves_parseBranch hblock none) fun last => .given ?_
    simpa using hnext [last]
  · refine .given ?_
    simpa using hnext []

theorem moves_parseAlt : Moves 0 (parseAlt block) CaseAlt.comments := by
  unfold parseAlt
  refine moves_rowTrivia.bind fun t => .next fun _ => .next fun choices => .next fun _ => ?_
  refine (moves_withInline t).bind fun t => .call hblock fun stmts => .pure ?_
  exact congrArg (t.comments + ·) (allComments_eq stmts).symm

theorem moves_parseAltsN (fuel : Nat) :
    Moves 0 (parseAltsN block fuel) (VhdlStyle.allComments CaseAlt.comments) := by
  induction fuel with
  | zero =>
      unfold parseAltsN
      exact .giveUp rfl
  | succ fuel ih =>
      unfold parseAltsN
      refine .next fun more => .ite (.pure rfl) ?_
      refine (moves_parseAlt hblock).bind fun alt => .call ih fun alts => .pure ?_
      rw [allComments_cons]

theorem moves_parseCase (h : Head) : Moves h.above (parseCase block h) comments := by
  unfold parseCase
  refine .next fun _ => .next fun matching => .next fun selector => .next fun _ => ?_
  refine .call (.sized (moves_parseAltsN hblock)) fun alts => .call moves_tail fun tail => ?_
  refine .next fun _ => .next fun _ => ?_
  extract_lets -underBinder next
  have hnext (u : PUnit) :
      Moves (h.above + VhdlStyle.allComments CaseAlt.comments alts + Comment.texts tail)
        (next u) comments := by
    refine .next fun endLabel => .next fun _ => .next fun _ => .call moves_inline fun text => ?_
    refine .pure ?_
    change _ = (h.withInline text).comments + CaseAlt.allComments alts + Comment.texts tail
    rw [CaseAlt.allComments_eq, Head.comments_withInline]
    abel
  clear_value next
  exact .ite (.next hnext) (hnext ⟨⟩)

theorem moves_parseLoop (h : Head) : Moves h.above (parseLoop block h) comments := by
  unfold parseLoop
  refine .next fun scheme => .next fun _ => .call hblock fun stmts => ?_
  refine .call moves_tail fun tail => .next fun endLabel => .call moves_inline fun text => ?_
  refine .pure ?_
  change _ = (h.withInline text).comments + allComments stmts + Comment.texts tail
  rw [allComments_eq, Head.comments_withInline]
  abel

theorem moves_parseWith : Moves 0 (parseWith block) (anyComments comments) := by
  unfold parseWith
  refine moves_rowTrivia.bind fun t => .next fun label => .next fun k => ?_
  change Moves (Head.above ⟨t, label⟩) _ _
  generalize (⟨t, label⟩ : Head) = h
  split
  case h_1 => exact .map (moves_parseIf hblock h) fun _ => rfl
  case h_2 => exact .map (moves_parseCase hblock h) fun _ => rfl
  case h_3 | h_4 | h_5 => exact .map (moves_parseLoop hblock h) fun _ => rfl
  case h_6 | h_7 => exact .map (moves_parseLoopControl h) fun _ => rfl
  case h_8 => exact .map (moves_parseReturn h) fun _ => rfl
  case h_9 | h_12 =>
    exact .next fun _ => h.moves_finish.bind fun _ => .pure rfl
  case h_10 => exact .map (moves_parseWait h) fun _ => rfl
  case h_11 => exact .map (moves_parseReport h) fun _ => rfl
  case h_13 => exact moves_parseNamed h

end

theorem moves_parseBlockN (n : Nat) :
    Moves 0 (parseBlockN n) (VhdlStyle.allComments comments) := by
  induction n with
  | zero =>
      unfold parseBlockN
      exact .giveUp rfl
  | succ n ih =>
      unfold parseBlockN
      exact moves_many (moves_parseWith ih)

theorem moves_parseBlock : Moves 0 parseBlock (VhdlStyle.allComments comments) :=
  .sized moves_parseBlockN

end SeqStmt

/-! ## Declarations -/

theorem UseClause.moves_parse : Moves 0 UseClause.parse UseClause.comments := by
  unfold UseClause.parse
  refine moves_rowTrivia.bind fun t => .next fun _ => .next fun names => .next fun _ => ?_
  exact (moves_withInline t).bind fun _ => .pure rfl

namespace TypeDef

theorem moves_parseUnit : Moves 0 parseUnit (anyComments PhysicalUnit.comments) := by
  unfold parseUnit
  refine moves_rowTrivia.bind fun t => .next fun name => .next fun hasValue => ?_
  extract_lets -underBinder next
  have hnext (value : Option Expr) :
      Moves t.above (next value) (anyComments PhysicalUnit.comments) :=
    .next fun _ => (moves_withInline t).bind fun _ => .pure rfl
  clear_value next
  exact .ite (.next fun _ => .next hnext) (.next hnext)

theorem moves_parseUnits : Moves 0 parseUnits (allComments PhysicalUnit.comments) := by
  unfold parseUnits
  refine .next fun hasUnits => .ite (.pure rfl) ?_
  refine (moves_many moves_parseUnit).bind fun units => ?_
  exact .next fun _ => .next fun _ => .next fun _ => .pure rfl

theorem moves_parseField : Moves 0 parseField (anyComments RecordField.comments) := by
  unfold parseField
  refine moves_rowTrivia.bind fun t => .next fun names => .next fun _ => .next fun indication => ?_
  exact .next fun _ => (moves_withInline t).bind fun _ => .pure rfl

theorem moves_parse : Moves 0 TypeDef.parse (anyComments TypeDef.comments) := by
  unfold TypeDef.parse
  refine .next fun k => ?_
  split
  case h_1 => exact .next fun _ => .next fun _ => .next fun _ => .pure rfl
  case h_2 =>
    refine .next fun _ => .next fun _ => moves_parseUnits.bind fun units => .pure rfl
  case h_3 =>
    refine .next fun _ => .next fun _ => .next fun _ => .next fun _ => .next fun _ => ?_
    exact .next fun _ => .pure rfl
  case h_4 =>
    refine .next fun _ => (moves_many moves_parseField).bind fun fields => ?_
    refine .call moves_tail fun tail => .next fun _ => .next fun _ => .next fun _ => .pure rfl
  case h_5 => exact .next fun _ => .next fun _ => .pure rfl
  case h_6 => exact moves_faultGot fun _ => .pure (Multiset.zero_le _)

end TypeDef

theorem SubprogramSpec.moves_parse : Moves 0 SubprogramSpec.parse SubprogramSpec.comments := by
  unfold SubprogramSpec.parse
  refine .next fun hasPurity => ?_
  extract_lets -underBinder next
  have hnext (purity : Bytes) : Moves 0 (next purity) SubprogramSpec.comments := by
    refine .next fun hasKind => ?_
    extract_lets -underBinder next
    have hnext (kind : Bytes) : Moves 0 (next kind) SubprogramSpec.comments := by
      refine .next fun isOperator => ?_
      extract_lets -underBinder next
      have hnext (name : Bytes) : Moves 0 (next name) SubprogramSpec.comments := by
        refine .next fun _ => .next fun hasParams => ?_
        extract_lets -underBinder next
        have hnext (parts : List InterfaceItem × List Comment) :
            Moves (allComments InterfaceItem.comments parts.1 + Comment.texts parts.2) (next parts)
              SubprogramSpec.comments := by
          refine .next fun hasResult => ?_
          extract_lets -underBinder next
          have hnext (result : Option Expr) :
              Moves (allComments InterfaceItem.comments parts.1 + Comment.texts parts.2)
                (next result) SubprogramSpec.comments := .pure rfl
          clear_value next
          exact .ite (.next fun _ => .next hnext) (.next hnext)
        clear_value next
        refine .ite ?_ ?_
        · refine (moves_rows InterfaceItem.moves_parsePort InterfaceItem.comments_setInline).bind
            fun params => .call moves_tail fun tail => .next fun _ => .given ?_
          exact hnext (params, tail)
        · exact .given (hnext ([], []))
      clear_value next
      exact .ite (.next fun _ => .next hnext) (.next hnext)
    clear_value next
    exact .ite (.next fun _ => .next hnext) (.next fun _ => .next hnext)
  clear_value next
  exact .ite (.next fun _ => .next hnext) (.next hnext)

namespace Decl

theorem moves_parseObject (t : RowTrivia) : Moves t.above (parseObject t) comments := by
  unfold parseObject
  refine .next fun objectClass => .next fun names => .next fun _ => .next fun indication => ?_
  exact .next fun default => .next fun _ => (moves_withInline t).bind fun _ => .pure rfl

theorem moves_parseType (t : RowTrivia) : Moves t.above (parseType t) comments := by
  unfold parseType
  refine .next fun _ => .next fun name => .next fun hasIs => ?_
  extract_lets -underBinder next
  have hnext (definition : Option TypeDef) :
      Moves (t.above + anyComments TypeDef.comments definition) (next definition) comments := by
    refine .next fun _ => .behind fun text => .pure ?_
    exact add_right_comm _ _ _
  clear_value next
  refine .ite (.call TypeDef.moves_parse hnext) (.given ?_)
  simpa [anyComments] using hnext none

theorem moves_parseSubtype (t : RowTrivia) : Moves t.above (parseSubtype t) comments := by
  unfold parseSubtype
  refine .next fun _ => .next fun name => .next fun _ => .next fun indication => .next fun _ => ?_
  exact (moves_withInline t).bind fun _ => .pure rfl

theorem moves_parseAlias (t : RowTrivia) : Moves t.above (parseAlias t) comments := by
  unfold parseAlias
  refine .next fun _ => .next fun name => .next fun hasIndication => ?_
  extract_lets -underBinder next
  have hnext (indication : Option SubtypeIndication) :
      Moves t.above (next indication) comments := by
    refine .next fun _ => .next fun target => .next fun _ => ?_
    exact (moves_withInline t).bind fun _ => .pure rfl
  clear_value next
  exact .ite (.next fun _ => .next hnext) (.next hnext)

theorem moves_parseComponent (t : RowTrivia) : Moves t.above (parseComponent t) comments := by
  unfold parseComponent
  refine .next fun _ => .next fun name => .next fun _ => ?_
  refine .call InterfaceList.moves_parseGenerics fun generics => ?_
  refine .call InterfaceList.moves_parsePorts fun ports => .call moves_tail fun tail => ?_
  refine .next fun endLabel => .behind fun text => .pure ?_
  change _ = RowTrivia.comments _ + _ + _ + Comment.texts tail
  rw [RowTrivia.comments_withInline]
  abel

theorem moves_parseAttribute (t : RowTrivia) : Moves t.above (parseAttribute t) comments := by
  unfold parseAttribute
  refine .next fun _ => .next fun name => .next fun _ => .next fun mark => .next fun _ => ?_
  exact (moves_withInline t).bind fun _ => .pure rfl

theorem moves_parseAttributeSpec (t : RowTrivia) :
    Moves t.above (parseAttributeSpec t) comments := by
  unfold parseAttributeSpec
  refine .next fun _ => .next fun name => .next fun _ => .next fun entities => .next fun _ => ?_
  refine .next fun token => ?_
  extract_lets -underBinder next
  have hnext (entityClass : Bytes) : Moves t.above (next entityClass) comments := by
    refine .next fun _ => .next fun value => .next fun _ => ?_
    exact (moves_withInline t).bind fun _ => .pure rfl
  clear_value next
  exact .ite (.next fun _ => .next hnext) (.next fun _ => .next hnext)

theorem moves_parseRaw (t : RowTrivia) : Moves t.above (parseRaw t) comments := by
  unfold parseRaw
  have htokens : Moves t.above (fun s => parseRawN s.size 0 s) fun _ => t.above :=
    .sized (f := fun size => parseRawN size 0) fun size => .still inferInstance
  refine htokens.bind fun tokens => .next fun _ => ?_
  exact (moves_withInline t).bind fun _ => .pure rfl

theorem moves_parseTypeOrRaw : Moves 0 parseTypeOrRaw (anyComments comments) := by
  unfold parseTypeOrRaw
  refine .next fun k => ?_
  split
  case h_1 => exact moves_rowTrivia.bind fun t => .map (moves_parseRaw t) fun _ => rfl
  case h_2 => exact moves_fault fun _ => .next fun _ => .pure (Multiset.zero_le _)
  case h_3 => exact moves_rowTrivia.bind fun t => .map (moves_parseType t) fun _ => rfl

section

variable {part : Parse (List Decl)} (hpart : Moves 0 part (VhdlStyle.allComments comments))

include hpart

theorem moves_parseSubprogram (t : RowTrivia) : Moves t.above (parseSubprogram part t) comments := by
  unfold parseSubprogram
  refine .call SubprogramSpec.moves_parse fun spec => .next fun hasBody => .ite ?_ ?_
  · refine .next fun _ => .behind fun text => .pure ?_
    exact add_right_comm _ _ _
  · refine .call hpart fun decls => .call moves_tail fun declTail => .next fun _ => ?_
    refine .call SeqStmt.moves_parseBlock fun stmts => .call moves_tail fun tail => ?_
    refine .next fun _ => .next fun hasWord => ?_
    extract_lets -underBinder next
    have hnext (u : PUnit) :
        Moves (t.above + spec.comments + VhdlStyle.allComments comments decls +
          Comment.texts declTail + VhdlStyle.allComments SeqStmt.comments stmts +
          Comment.texts tail) (next u) comments := by
      refine .next fun hasLabel => ?_
      extract_lets -underBinder last
      have hlast (endLabel : Bytes) :
          Moves (t.above + spec.comments + VhdlStyle.allComments comments decls +
            Comment.texts declTail + VhdlStyle.allComments SeqStmt.comments stmts +
            Comment.texts tail) (last endLabel) comments := by
        refine .next fun _ => .next fun _ => .behind fun text => .pure ?_
        change _ = RowTrivia.comments _ + spec.comments + allComments decls +
          Comment.texts declTail + SeqStmt.allComments stmts + Comment.texts tail
        rw [allComments_eq, SeqStmt.allComments_eq, RowTrivia.comments_withInline]
        abel
      clear_value last
      exact .ite (.next fun _ => .next hlast) (.next hlast)
    clear_value next
    exact .ite (.next hnext) (hnext ⟨⟩)

theorem moves_parseWith : Moves 0 (parseWith part) (anyComments comments) := by
  unfold parseWith
  refine .next fun k => ?_
  split
  case h_1 | h_2 | h_3 | h_4 =>
    exact moves_rowTrivia.bind fun t => .map (moves_parseObject t) fun _ => rfl
  case h_5 => exact moves_parseTypeOrRaw
  case h_6 => exact moves_rowTrivia.bind fun t => .map (moves_parseSubtype t) fun _ => rfl
  case h_7 => exact moves_rowTrivia.bind fun t => .map (moves_parseAlias t) fun _ => rfl
  case h_8 => exact moves_rowTrivia.bind fun t => .map (moves_parseComponent t) fun _ => rfl
  case h_9 =>
    refine .next fun k => .ite ?_ ?_
    · exact moves_rowTrivia.bind fun t => .map (moves_parseAttribute t) fun _ => rfl
    · exact moves_rowTrivia.bind fun t => .map (moves_parseAttributeSpec t) fun _ => rfl
  case h_10 | h_11 | h_12 | h_13 =>
    exact moves_rowTrivia.bind fun t => .map (moves_parseSubprogram hpart t) fun _ => rfl
  case h_14 =>
    exact UseClause.moves_parse.bind fun clause => .pure rfl
  case h_15 | h_16 | h_17 | h_18 =>
    exact moves_rowTrivia.bind fun t => .map (moves_parseRaw t) fun _ => rfl
  case h_19 => exact moves_faultGot fun _ => .next fun _ => .pure (Multiset.zero_le _)

end

theorem moves_parsePartN (n : Nat) :
    Moves 0 (parsePartN n) (VhdlStyle.allComments comments) := by
  induction n with
  | zero =>
      unfold parsePartN
      exact .giveUp rfl
  | succ n ih =>
      unfold parsePartN
      exact moves_many (moves_parseWith ih)

theorem moves_parsePart : Moves 0 parsePart (VhdlStyle.allComments comments) :=
  .sized moves_parsePartN

end Decl

/-! ## Concurrent statements -/

namespace ConcStmt

theorem moves_parseProcess (h : Head) (postponed : Bool) :
    Moves h.above (parseProcess h postponed) comments := by
  unfold parseProcess
  refine .next fun _ => .next fun sensitivity => .next fun hasIs => ?_
  refine .call Decl.moves_parsePart fun decls => .call moves_tail fun declTail => .next fun _ => ?_
  refine .call SeqStmt.moves_parseBlock fun stmts => .call moves_tail fun tail => ?_
  refine .next fun _ => .next fun _ => .next fun _ => .next fun endLabel => .next fun _ => ?_
  refine .next fun _ => .call moves_inline fun text => .pure ?_
  change _ = (h.withInline text).comments + (Decl.allComments decls + Comment.texts declTail +
    SeqStmt.allComments stmts + Comment.texts tail)
  rw [Decl.allComments_eq, SeqStmt.allComments_eq, Head.comments_withInline]
  abel

theorem moves_parseMaps (h : Head) (inst : Instantiation) :
    Moves h.above (parseMaps h inst) comments := by
  unfold parseMaps
  extract_lets -underBinder next
  have hnext (u : PUnit) : Moves h.above (next u) comments := by
    refine .next fun atGeneric => ?_
    extract_lets -underBinder next
    have hnext (genericMap : Option MapList) :
        Moves (h.above + anyComments MapList.comments genericMap) (next genericMap) comments := by
      refine .next fun atPort => ?_
      extract_lets -underBinder next
      have hnext (portMap : Option MapList) :
          Moves (h.above + anyComments MapList.comments genericMap +
            anyComments MapList.comments portMap) (next portMap) comments := by
        refine h.moves_finish_bind fun text => .pure ?_
        change _ = (h.withInline text).comments + (anyComments MapList.comments genericMap +
          anyComments MapList.comments portMap)
        rw [Head.comments_withInline]
        abel
      clear_value next
      refine .ite (.call MapList.moves_parse fun list => .given ?_) (.given ?_)
      · exact hnext (some list)
      · simpa [anyComments] using hnext none
    clear_value next
    refine .ite (.call MapList.moves_parse fun list => .given ?_) (.given ?_)
    · exact hnext (some list)
    · simpa [anyComments] using hnext none
  clear_value next
  exact .ite (.next hnext) (hnext ⟨⟩)

theorem moves_parseInstance (h : Head) : Moves h.above (parseInstance h) comments := by
  unfold parseInstance
  refine .next fun word => .next fun unit => .next fun hasArch => ?_
  extract_lets -underBinder next
  have hnext (arch : Bytes) : Moves h.above (next arch) comments := moves_parseMaps h _
  clear_value next
  exact .ite (.next fun _ => .next fun _ => .next hnext) (.next hnext)

theorem moves_parseSelected (h : Head) : Moves h.above (parseSelected h) comments := by
  unfold parseSelected
  refine .next fun _ => .next fun selector => .next fun _ => .next fun target => .next fun _ => ?_
  exact .next fun arms => h.moves_finish.bind fun _ => .pure rfl

theorem moves_parseNamed (h : Head) : Moves h.above (parseNamed h) (anyComments comments) := by
  unfold parseNamed
  refine .next fun isName => .ite (moves_faultGot fun _ => .next fun _ => .pure (Multiset.zero_le _)) ?_
  refine .next fun target => .next fun atMap => .ite ?_ (.next fun isSignal => .ite ?_ ?_)
  · exact .map (moves_parseMaps h _) fun _ => rfl
  · exact .next fun _ => h.moves_finish.bind fun _ => .pure rfl
  · exact h.moves_finish.bind fun _ => .pure rfl

section

variable {block : Parse (List ConcStmt)} (hblock : Moves 0 block (VhdlStyle.allComments comments))

include hblock

theorem moves_parseBody : Moves 0 (parseBody block) GenerateBody.comments := by
  unfold parseBody
  refine .next fun hasDecls => ?_
  extract_lets -underBinder next
  have hnext (parts : List Decl × Bool) :
      Moves (VhdlStyle.allComments Decl.comments parts.1) (next parts) GenerateBody.comments := by
    refine .call hblock fun stmts => .call moves_tail fun tail => .pure ?_
    change _ = Decl.allComments parts.1 + allComments stmts + Comment.texts tail
    rw [Decl.allComments_eq, allComments_eq]
  clear_value next
  refine .ite ?_ ?_
  · exact Decl.moves_parsePart.bind fun decls => .next fun _ => .given (hnext (decls, true))
  · exact .next fun hasBegin => .given (hnext ([], hasBegin))

theorem moves_parseForGenerate (h : Head) :
    Moves h.above (parseForGenerate block h) comments := by
  unfold parseForGenerate
  refine .next fun _ => .next fun _ => .next fun param => .next fun _ => .next fun range => ?_
  refine .next fun _ => .call (moves_parseBody hblock) fun body => .next fun endLabel => ?_
  refine .call moves_inline fun text => .pure ?_
  change _ = (h.withInline text).comments + body.comments
  rw [Head.comments_withInline]
  abel

theorem moves_parseCondBranch : Moves 0 (parseCondBranch block) GenerateBranch.comments := by
  unfold parseCondBranch
  exact .next fun cond => .next fun _ => (moves_parseBody hblock).bind fun body => .pure rfl

theorem moves_parseIfGenerate (h : Head) : Moves h.above (parseIfGenerate block h) comments := by
  have hbranch := moves_parseCondBranch hblock
  unfold parseIfGenerate
  refine .next fun _ => .next fun _ => .call hbranch fun first => ?_
  refine .call (.sized (moves_afterEachN hbranch)) fun others => .next fun hasElse => ?_
  extract_lets -underBinder next
  have hnext (last : List GenerateBranch) :
      Moves (h.above + GenerateBranch.comments first +
        VhdlStyle.allComments GenerateBranch.comments others +
        VhdlStyle.allComments GenerateBranch.comments last) (next last) comments := by
    refine .next fun endLabel => .call moves_inline fun text => .pure ?_
    change _ = (h.withInline text).comments + GenerateBranch.allComments _
    rw [GenerateBranch.allComments_eq, Head.comments_withInline]
    simp only [List.cons_append, allComments_cons, allComments_append]
    abel
  clear_value next
  refine .ite ?_ ?_
  · refine .next fun _ => .call (moves_parseBody hblock) fun body => .given ?_
    simpa [GenerateBranch.comments] using hnext [⟨none, body⟩]
  · refine .given ?_
    simpa using hnext []

theorem moves_parseWith : Moves 0 (parseWith block) (anyComments comments) := by
  unfold parseWith
  refine moves_rowTrivia.bind fun t => .next fun label => .next fun postponed => .next fun k => ?_
  change Moves (Head.above ⟨t, label⟩) _ _
  generalize (⟨t, label⟩ : Head) = h
  split
  case h_1 => exact .map (moves_parseProcess h postponed) fun _ => rfl
  case h_2 =>
    exact .next fun _ => h.moves_finish.bind fun _ => .pure rfl
  case h_3 => exact .map (moves_parseSelected h) fun _ => rfl
  case h_4 => exact .map (moves_parseForGenerate hblock h) fun _ => rfl
  case h_5 => exact .map (moves_parseIfGenerate hblock h) fun _ => rfl
  case h_6 | h_7 | h_8 => exact .map (moves_parseInstance h) fun _ => rfl
  case h_9 => exact moves_fault fun _ => .next fun _ => .pure (Multiset.zero_le _)
  case h_10 => exact moves_parseNamed h

end

theorem moves_parseBlockN (n : Nat) :
    Moves 0 (parseBlockN n) (VhdlStyle.allComments comments) := by
  induction n with
  | zero =>
      unfold parseBlockN
      exact .giveUp rfl
  | succ n ih =>
      unfold parseBlockN
      exact moves_many (moves_parseWith ih)

theorem moves_parseBlock : Moves 0 parseBlock (VhdlStyle.allComments comments) :=
  .sized moves_parseBlockN

end ConcStmt

/-! ## Design units and files -/

theorem ContextItem.moves_parseLibrary : Moves 0 ContextItem.parseLibrary ContextItem.comments := by
  unfold ContextItem.parseLibrary
  refine moves_rowTrivia.bind fun t => .next fun _ => .next fun names => .next fun _ => ?_
  exact (moves_withInline t).bind fun _ => .pure rfl

namespace DesignUnit

theorem moves_close (t : RowTrivia) (context : List ContextItem) (name : Bytes) (body : UnitBody)
    (words : List Kind) :
    Moves (allComments ContextItem.comments context + t.above + body.comments)
      (close t context name body words) comments := by
  unfold close
  refine .call moves_tail fun tail => .next fun endLabel => .behind fun text => .pure ?_
  rw [comments, RowTrivia.comments_withInline]
  abel

variable (context : List ContextItem)

theorem moves_parseEntity :
    Moves (allComments ContextItem.comments context) (parseEntity context) comments := by
  unfold parseEntity
  refine .call moves_rowTrivia fun t => .next fun _ => .next fun name => .next fun _ => ?_
  refine .call InterfaceList.moves_parseGenerics fun generics => ?_
  refine .call InterfaceList.moves_parsePorts fun ports => ?_
  refine .call Decl.moves_parsePart fun decls => .next fun hasBegin => ?_
  extract_lets -underBinder next
  have hnext (stmts : List ConcStmt) :
      Moves (allComments ContextItem.comments context + t.above +
        anyComments InterfaceList.comments generics + anyComments InterfaceList.comments ports +
        allComments Decl.comments decls + allComments ConcStmt.comments stmts)
        (next stmts) comments := by
    have hclose := moves_close t context name (.entity generics ports decls hasBegin stmts)
      [.kwEntity]
    rw [UnitBody.comments, Decl.allComments_eq, ConcStmt.allComments_eq] at hclose
    simpa only [add_assoc] using hclose
  clear_value next
  refine .ite (.call ConcStmt.moves_parseBlock hnext) (.given ?_)
  simpa using hnext []

theorem moves_parseArchitecture :
    Moves (allComments ContextItem.comments context) (parseArchitecture context) comments := by
  unfold parseArchitecture
  refine .call moves_rowTrivia fun t => .next fun _ => .next fun name => .next fun _ => ?_
  refine .next fun entityName => .next fun _ => .call Decl.moves_parsePart fun decls => ?_
  refine .call moves_tail fun declTail => .next fun _ => ?_
  refine .call ConcStmt.moves_parseBlock fun stmts => ?_
  have hclose := moves_close t context name (.architecture entityName decls declTail stmts)
    [.kwArchitecture]
  rw [UnitBody.comments, Decl.allComments_eq, ConcStmt.allComments_eq] at hclose
  simpa only [add_assoc] using hclose

theorem moves_parsePackage :
    Moves (allComments ContextItem.comments context) (parsePackage context) comments := by
  unfold parsePackage
  refine .call moves_rowTrivia fun t => .next fun _ => .next fun name => .next fun _ => ?_
  refine .call InterfaceList.moves_parseGenerics fun generics => ?_
  refine .call Decl.moves_parsePart fun decls => ?_
  have hclose := moves_close t context name (.package generics decls) [.kwPackage]
  rw [UnitBody.comments, Decl.allComments_eq] at hclose
  simpa only [add_assoc] using hclose

theorem moves_parsePackageBody :
    Moves (allComments ContextItem.comments context) (parsePackageBody context) comments := by
  unfold parsePackageBody
  refine .call moves_rowTrivia fun t => .next fun _ => .next fun _ => .next fun name => ?_
  refine .next fun _ => .call Decl.moves_parsePart fun decls => ?_
  have hclose := moves_close t context name (.packageBody decls) [.kwPackage, .kwBody]
  rwa [UnitBody.comments, Decl.allComments_eq] at hclose

end DesignUnit

namespace DesignFile

/-- The comments of a unit that may have been read and of the context items that wait. -/
def stepComments (r : Option DesignUnit × List ContextItem) : Multiset Bytes :=
  anyComments DesignUnit.comments r.1 + allComments ContextItem.comments r.2

/-- The comments of units and of the context items that wait. -/
def readComments (r : List DesignUnit × List ContextItem) : Multiset Bytes :=
  allComments DesignUnit.comments r.1 + allComments ContextItem.comments r.2

theorem moves_parseStep (context : List ContextItem) :
    Moves (allComments ContextItem.comments context) (parseStep context) stepComments := by
  unfold parseStep
  refine .next fun k => ?_
  split
  case h_1 =>
    refine .call ContextItem.moves_parseLibrary fun item => .pure ?_
    simp [stepComments, anyComments]
  case h_2 =>
    refine .call UseClause.moves_parse fun clause => .pure ?_
    simp [stepComments, anyComments, ContextItem.comments, ContextItem.trivia, UseClause.comments]
  case h_3 =>
    refine (DesignUnit.moves_parseEntity context).bind fun unit => .pure ?_
    simp [stepComments, anyComments]
  case h_4 =>
    refine (DesignUnit.moves_parseArchitecture context).bind fun unit => .pure ?_
    simp [stepComments, anyComments]
  case h_5 =>
    refine .next fun k => .ite ?_ ?_
    · refine (DesignUnit.moves_parsePackageBody context).bind fun unit => .pure ?_
      simp [stepComments, anyComments]
    · refine (DesignUnit.moves_parsePackage context).bind fun unit => .pure ?_
      simp [stepComments, anyComments]
  case h_6 =>
    refine moves_faultGot fun _ => .next fun _ => .pure ?_
    simp [stepComments, anyComments]

theorem moves_parseUnitsN (fuel : Nat) (context : List ContextItem) :
    Moves (allComments ContextItem.comments context) (parseUnitsN fuel context) readComments := by
  induction fuel generalizing context with
  | zero =>
      unfold parseUnitsN
      refine .giveUp ?_
      simp [readComments]
  | succ fuel ih =>
      unfold parseUnitsN
      refine .next fun atEnd => .ite (.pure (by simp [readComments])) ?_
      refine .get fun before => (moves_parseStep context).bind fun step => .get fun after => ?_
      extract_lets -underBinder next
      have hnext (u : PUnit) : Moves (stepComments step) (next u) readComments := by
        refine ((ih step.2).frame _).bind fun rest => .pure ?_
        obtain ⟨unit, waiting⟩ := step
        cases unit <;> simp [readComments, anyComments, add_assoc]
      clear_value next
      exact .ite (.next hnext) (hnext ⟨⟩)

theorem moves_parseTokens : Moves 0 parseTokens comments := by
  unfold parseTokens
  have hunits : Moves 0 (fun s => parseUnitsN s.size [] s) readComments :=
    .sized (f := fun size => parseUnitsN size []) fun size => moves_parseUnitsN size []
  refine hunits.bind fun parts => ?_
  obtain ⟨units, context⟩ := parts
  change Moves _ (if _ then _ else _) _
  split
  · refine moves_fault fun _ => .call moves_tail.toWithin fun trailing => .pure ?_
    exact add_le_add (Multiset.le_add_right _ _) le_rfl
  · rename_i hnone
    have hcontext : context = [] := by simpa using hnone
    subst hcontext
    refine .call moves_tail fun trailing => .pure ?_
    simp [readComments, comments]

end DesignFile

end VhdlStyle
