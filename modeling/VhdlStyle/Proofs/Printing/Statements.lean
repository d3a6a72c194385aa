import VhdlStyle.Proofs.Printing.Code

/-! # Statements and declarations show their comments

Every row shows the comments bound to it and those inside it. The recursion follows the printer:
statements with their branches, then declarations with what nests inside subprograms. -/

namespace VhdlStyle

/-! ## Sequential statements -/

/-- The comments inside a statement. -/
def SeqStmt.inside : SeqStmt → Multiset Bytes
  | .ifStmt _ branches _ => IfBranch.allComments branches
  | .caseStmt _ _ _ alts _ tail => CaseAlt.allComments alts + Comment.texts tail
  | .loop _ _ stmts _ tail => SeqStmt.allComments stmts + Comment.texts tail
  | _ => 0

theorem SeqStmt.comments_eq (s : SeqStmt) : s.comments = s.head.trivia.comments + s.inside := by
  cases s <;> simp [comments, inside, head, Head.comments, add_assoc]

namespace Printer

variable (p : Printer)

theorem shows_labeled {label : Bytes} (hlabel : label.InCode) {body : Doc} {cs : Multiset Bytes}
    (hbody : Doc.Shows false [body] false cs) :
    Doc.Shows false [p.labeled label body] false cs := by
  have hcolon : Doc.Quiet (.text " : ") := by simp +decide
  rw [labeled]
  split
  · exact hbody
  · exact ((hbody.after_code hcolon).after_code (p.quiet_name hlabel)).concat

/-- Lines with comments, and code on the line below them. -/
theorem shows_closed {body close : Doc} {cs : Multiset Bytes}
    (hbody : Doc.Shows false [body] true cs) (hclose : close.Quiet) :
    Doc.Shows false [body, .hardLine, close] false cs := by
  have hend := hbody.append (Doc.Shows.code hclose).after_hardLine
  rwa [add_zero] at hend

mutual

theorem shows_seqStmt (s : SeqStmt) (h : s.InCode) :
    Doc.Shows false [p.seqStmt s] false s.inside := by
  match s, h with
  | .signalAssign h target arms, ⟨hh, htarget, harms⟩ =>
      exact .code (p.quiet_labeled hh (p.quiet_signalAssign htarget harms))
  | .varAssign h target x, ⟨hh, htarget, hx⟩ =>
      rw [seqStmt]
      exact .code (p.quiet_labeled hh (by simp +decide [htarget, hx]))
  | .ifStmt h branches endLabel, ⟨hh, hbranches, hend⟩ =>
      have hclose := p.quiet_stmtEnd [p.keyword "if"] (by simp +decide) hend hh
      have hbody := (shows_ifBranches true branches hbranches).append
        (Doc.Shows.code hclose).after_hardLine
      rw [add_zero] at hbody
      exact p.shows_labeled hh hbody.concat
  | .caseStmt h matching selector alts endLabel tail, ⟨hh, hselector, halts, hend⟩ =>
      have hmark : ∀ d ∈ p.keyword "case" :: (if matching then [Doc.text "?"] else []),
          d.Quiet := by
        cases matching <;> simp +decide
      have hfront : ∀ d ∈ [.space, p.value selector, .space, p.keyword "is"], d.Quiet := by
        simp +decide [hselector]
      have hblock := (shows_caseAlts alts halts Block.shows_empty).comments tail
      rw [zero_add] at hblock
      have hbody := shows_closed hblock.nest (p.quiet_stmtEnd _ hmark hend hh)
      exact p.shows_labeled hh ((hbody.after_codes hfront).after_codes hmark).concat
  | .loop h scheme stmts endLabel tail, ⟨hh, hscheme, hstmts, hend⟩ =>
      have hclose := p.quiet_stmtEnd [p.keyword "loop"] (by simp +decide) hend hh
      have hword : (p.keyword "loop").Quiet := p.quiet_word (by decide)
      have hblock := (shows_seqBlock stmts hstmts Block.shows_empty).comments tail
      rw [zero_add] at hblock
      have hbody := (shows_closed hblock.nest hclose).after_code hword
      exact p.shows_labeled hh (hbody.after_codes (p.quiet_loopScheme hscheme)).concat
  | .loopControl h word loopLabel cond, ⟨hh, hword, hlabel, hcond⟩ =>
      have hclause := p.quiet_clause "when" (by decide)
        (fun _ hx => p.quiet_value hx) hcond
      have htarget : ∀ d ∈ if loopLabel.isEmpty then [] else [.space, p.name loopLabel],
          d.Quiet := by
        split <;> simp [hlabel]
      have hall : ∀ d ∈ p.keyword word ::
          (if loopLabel.isEmpty then [] else [.space, p.name loopLabel]) ++
            p.clause "when" p.value cond ++ [.text ";"], d.Quiet := by
        simp only [List.forall_mem_append, List.forall_mem_cons]
        exact ⟨⟨⟨p.quiet_keyword hword, htarget⟩, hclause⟩, by simp +decide⟩
      exact .code (p.quiet_labeled hh (Doc.quiet_concat.mpr hall))
  | .returnStmt h x, ⟨hh, hx⟩ =>
      have hresult : ∀ d ∈ match x with
          | some x => [Doc.space, p.value x]
          | none => [], d.Quiet := by
        cases x with
        | none => simp
        | some x =>
            have hquiet := p.quiet_value (hx x rfl)
            simp [hquiet]
      refine .code (p.quiet_labeled hh (Doc.quiet_concat.mpr ?_))
      simp only [List.forall_mem_append, List.forall_mem_cons]
      exact ⟨⟨p.quiet_word (by decide), hresult⟩, by simp +decide⟩
  | .nullStmt h, hh =>
      rw [seqStmt]
      exact .code (p.quiet_labeled hh (by simp +decide))
  | .waitStmt h signals cond time, ⟨hh, hsignals, hcond, htime⟩ =>
      have huntil := p.quiet_clause "until" (by decide)
        (fun _ hx => p.quiet_value hx) hcond
      have hfor := p.quiet_clause "for" (by decide) p.quiet_expr htime
      have hon : ∀ d ∈ if signals.isEmpty then []
          else [.space, p.keyword "on", .space, p.exprList signals], d.Quiet := by
        have hlist := p.quiet_exprList hsignals
        split <;> simp +decide [hlist]
      rw [seqStmt]
      refine .code (p.quiet_labeled hh (Doc.quiet_concat.mpr ?_))
      simp only [List.forall_mem_append, List.forall_mem_cons]
      exact ⟨⟨⟨⟨p.quiet_word (by decide), hon⟩, huntil⟩, hfor⟩, by simp +decide⟩
  | .reportStmt h message severity, ⟨hh, hmessage, hseverity⟩ =>
      have hclause := p.quiet_clause "severity" (by decide) p.quiet_expr hseverity
      have hvalue := p.quiet_value hmessage
      rw [seqStmt]
      refine .code (p.quiet_labeled hh (Doc.quiet_concat.mpr ?_))
      simp only [List.forall_mem_append]
      exact ⟨⟨by simp +decide [hvalue], hclause⟩, by simp +decide⟩
  | .assertStmt h a, ⟨hh, ha⟩ => exact .code (p.quiet_labeled hh (p.quiet_assertion ha))
  | .call h callee, ⟨hh, hcallee⟩ =>
      have hvalue := p.quiet_value hcallee
      rw [seqStmt]
      exact .code (p.quiet_labeled hh (by simp +decide [hvalue]))

theorem shows_seqBlock (ss : List SeqStmt) (h : SeqStmt.AllInCode ss) {b : Block}
    {cs : Multiset Bytes} (hb : b.Shows cs) :
    (p.seqBlock b ss).Shows (cs + SeqStmt.allComments ss) := by
  match ss, h with
  | [], _ =>
      rw [seqBlock, SeqStmt.allComments, add_zero]
      exact hb
  | s :: rest, ⟨hs, hrest⟩ =>
      have hrow := hb.row s.head.trivia (shows_seqStmt s hs)
      have hblock := shows_seqBlock rest hrest hrow
      rw [SeqStmt.allComments, SeqStmt.comments_eq, ← add_assoc]
      exact hblock

theorem shows_ifBranches (first : Bool) (bs : List IfBranch) (h : IfBranch.AllInCode bs) :
    Doc.Shows (!first) (p.ifBranches first bs) true (IfBranch.allComments bs) := by
  match bs, h with
  | [], _ => exact Doc.Shows.nil.mono (Bool.le_refl _) (Bool.le_true _)
  | .mk cond stmts tail :: rest, ⟨⟨hcond, hstmts⟩, hrest⟩ =>
      have hblock := (shows_seqBlock stmts hstmts Block.shows_empty).comments tail
      rw [zero_add] at hblock
      have hnest : Doc.Shows false [((p.seqBlock {} stmts).comments tail).nest] true _ :=
        hblock.nest
      have hbody := hnest.append (shows_ifBranches false rest hrest)
      have hthen : ∀ d ∈ if cond.isSome then [p.keyword "then"] else [], d.Quiet := by
        split <;> simp +decide
      have hall := (hbody.after_codes hthen).after_codes (p.quiet_branchHead first hcond)
      rw [ifBranches, IfBranch.allComments, IfBranch.comments]
      cases first with
      | true => simpa using hall
      | false => simpa using hall.after_hardLine

theorem shows_caseAlts (as : List CaseAlt) (h : CaseAlt.AllInCode as) {b : Block}
    {cs : Multiset Bytes} (hb : b.Shows cs) :
    (p.caseAlts b as).Shows (cs + CaseAlt.allComments as) := by
  match as, h with
  | [], _ =>
      rw [caseAlts, CaseAlt.allComments, add_zero]
      exact hb
  | .mk t choices stmts :: rest, ⟨⟨hchoices, hstmts⟩, hrest⟩ =>
      have hblock := shows_seqBlock stmts hstmts Block.shows_empty
      rw [zero_add] at hblock
      have hfront : ∀ d ∈ [p.keyword "when", .space, p.choices choices, .text " =>"], d.Quiet := by
        have hquiet := p.quiet_choices hchoices
        simp +decide [hquiet]
      have hline := (((Doc.shows_inline t.inline).append hblock.nest).after_codes hfront).concat
      have halts := shows_caseAlts rest hrest ((hb.leading t).add hline)
      rw [CaseAlt.allComments, CaseAlt.comments, RowTrivia.comments]
      simp only [add_assoc] at halts ⊢
      exact halts

end

end Printer

end VhdlStyle
