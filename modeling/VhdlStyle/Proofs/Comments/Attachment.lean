import VhdlStyle.Proofs.Comments.Actions
import VhdlStyle.Proofs.Comments.Scanned
import VhdlStyle.Proofs.Diagnostics.Found
import VhdlStyle.Proofs.Parsing.Progress

/-! # Every comment of a source is attached once

The lexer makes no blank line comments, and a run that reports no error counts none; conservation
over the whole run then says where the comments of the tokens have gone. -/

namespace VhdlStyle

/-! ## Comments from the lexer -/

/-- No line comment of trivia is blank. -/
def Trivia.Worded (trivia : List Trivia) : Prop :=
  ∀ tr ∈ trivia, tr.kind = .lineComment → Comment.trim tr.text ≠ []

theorem Trivia.Scanned.trim_ne_nil {tr : Trivia} (h : tr.Scanned) (hkind : tr.kind = .lineComment) :
    Comment.trim tr.text ≠ [] := by
  intro hnil
  have htext := h.commentText (by simp [isComment, hkind])
  rw [hnil] at htext
  exact Bool.false_ne_true htext.isComment

theorem Lexer.allN_worded (fuel : Nat) (lx : Lexer) (hlook : lx.look = none) :
    ∀ t ∈ (allN fuel lx).1, Trivia.Worded t.leading := by
  have hscanned := (forall_allN (P := fun t => ∀ tr ∈ t.leading, tr.Scanned) scanToken_scanned
    scanToken_faults fuel lx hlook).1
  intro t ht tr htr hkind
  exact (hscanned t ht tr htr).trim_ne_nil hkind

/-! ## Runs without errors -/

/-- Lexing and parsing a source without errors attaches each comment of its tokens once: the
comments of the design are those in front of the tokens, without their trailing blanks. -/
theorem comments_attached_once (f : SourceFile) (all : List Diagnostic) (hall : f.Finds all)
    (hclean : ∀ d ∈ all, d.isError = false) (bag : Bag) (hbag : bag.items = []) :
    (f.parse bag).1.comments = Token.comments f.tokens.1 := by
  obtain ⟨design, w, ds, hrun, hparse⟩ := f.exists_run
  have hfound : f.tokens.2 ++ ds = all := hall.eq_of_parse hparse
  let start : ParseState := { rest := f.tokens.1, bag := default }
  have hworded : start.Worded := Lexer.allN_worded (f.content.length + 2) (Lexer.ofFile f) rfl
  have herrors : (DesignFile.parseTokens start).2.errors = start.errors := by
    rw [hrun start rfl]
    refine ParseState.recordAll_errors _ fun d hd => hclean d ?_
    rw [← hfound]
    exact List.mem_append_right _ hd
  have hkept := DesignFile.moves_parseTokens.kept start hworded herrors
  -- at the end nothing is left to attach
  have hnone : (DesignFile.parseTokens start).2.comments = 0 := by
    obtain ⟨last, hbare, hrest, hpending⟩ := DesignFile.parseTokens_rest start f.tokens_ended
    simp [ParseState.comments, hrest, hpending, hbare, Trivia.comments]
  have hdesign : (f.parse bag).1 = (DesignFile.parseTokens start).1 := by
    rw [hparse bag hbag, hrun start rfl]
  have hstart : start.comments = Token.comments f.tokens.1 := by simp [ParseState.comments, start]
  rw [hnone, add_zero, zero_add, hstart] at hkept
  rw [hdesign, hkept]

/-- A comment above a row, one behind a row, one before the end and one after it. -/
theorem comments_attached_in_entity :
    let f := SourceFile.ofBytes "a.vhd" "--a \nentity e is --b\n/*c*/end; --d\n--e"
    (f.parse (Bag.ofLimit 9)).1.comments =
      (["--a", "--b", "/*c*/", "--d", "--e"] : List Bytes) := by
  intro f
  have hfinds : f.Finds [] := ⟨Bag.ofLimit 9, rfl, by decide +kernel, by decide +kernel⟩
  rw [comments_attached_once f [] hfinds (by simp) (Bag.ofLimit 9) rfl]
  decide +kernel

end VhdlStyle
