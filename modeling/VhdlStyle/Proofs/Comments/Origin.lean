import VhdlStyle.Proofs.Comments.Actions
import VhdlStyle.Proofs.Comments.Scanned
import VhdlStyle.Proofs.Diagnostics.Found

/-! # Where comments come from

Whatever errors a source has, the comments of its design stand in its text. -/

namespace VhdlStyle

namespace Lexer

/-- Trivia stands in the text that is read, and the text goes on behind it. -/
theorem triviaN_infix (fuel : Nat) (lx : Lexer) :
    (triviaN fuel lx).2.2.rest <:+ lx.rest ∧ ∀ tr ∈ (triviaN fuel lx).1, tr.text <:+: lx.rest := by
  induction fuel generalizing lx with
  | zero => exact ⟨List.suffix_rfl, by simp [triviaN]⟩
  | succ fuel ih =>
      unfold triviaN
      split
      · exact ⟨List.suffix_rfl, by simp⟩
      · split
        · exact ⟨List.suffix_rfl, by simp⟩
        · rename_i piece _
          obtain ⟨hafter, hmore⟩ := ih (lx.skip (piece.more + 1))
          have hskip : (lx.skip (piece.more + 1)).rest <:+ lx.rest := List.drop_suffix _ _
          refine ⟨hafter.trans hskip, List.forall_mem_cons.mpr ⟨?_, fun tr htr => ?_⟩⟩
          · exact (List.take_prefix _ _).isInfix
          · exact (hmore tr htr).trans hskip.isInfix

theorem scanToken_infix (lx : Lexer) : lx.scanToken.2.2.rest <:+ lx.rest ∧
    ∀ tr ∈ lx.scanToken.1.leading, tr.text <:+: lx.rest := by
  obtain ⟨hafter, htrivia⟩ := triviaN_infix lx.rest.length lx
  unfold scanToken
  dsimp only [trivia]
  split
  · exact ⟨hafter, htrivia⟩
  · exact ⟨(List.drop_suffix _ _).trans hafter, htrivia⟩

theorem allN_infix (fuel : Nat) (lx : Lexer) (hlook : lx.look = none) :
    ∀ t ∈ (allN fuel lx).1, ∀ tr ∈ t.leading, tr.text <:+: lx.rest := by
  induction fuel generalizing lx with
  | zero => simp [allN]
  | succ fuel ih =>
      obtain ⟨hafter, htrivia⟩ := lx.scanToken_infix
      have hnext : lx.next = lx.scanToken := by rw [next, hlook]
      rw [allN, hnext]
      by_cases hkind : lx.scanToken.1.kind = .eof
      · simpa [hkind] using htrivia
      · have hmore := ih _ (lx.scanToken_look.trans hlook)
        simp only [beq_iff_eq, hkind, if_false, List.forall_mem_cons]
        exact ⟨htrivia, fun t ht tr htr => (hmore t ht tr htr).trans hafter.isInfix⟩

end Lexer

namespace SourceFile

/-- A comment in front of a token is trimmed from the text. -/
theorem exists_of_mem_tokens (f : SourceFile) : ∀ c ∈ Token.comments f.tokens.1,
    ∃ text, text <:+: f.content ∧ Comment.trim text = c := by
  intro c hc
  rw [Token.comments, Trivia.comments, Multiset.mem_coe] at hc
  obtain ⟨tr, htr, rfl⟩ := List.mem_map.mp hc
  obtain ⟨t, ht, hleading⟩ := List.mem_flatMap.mp (List.mem_filter.mp htr).1
  have hinfix := Lexer.allN_infix (f.content.length + 2) (Lexer.ofFile f) rfl t ht tr hleading
  exact ⟨tr.text, hinfix, rfl⟩

/-- The design has no comments but those in front of tokens. -/
theorem comments_parse_le (f : SourceFile) {bag : Bag} (hbag : bag.items = []) :
    (f.parse bag).1.comments ≤ Token.comments f.tokens.1 := by
  obtain ⟨design, w, ds, hrun, hparse⟩ := f.exists_run
  have hbounded := DesignFile.moves_parseTokens.bounded { rest := f.tokens.1, bag := default }
  rw [hrun _ rfl, zero_add] at hbounded
  rw [hparse bag hbag]
  calc design.comments ≤ _ := Multiset.le_add_right _ _
    _ ≤ _ := hbounded
    _ = Token.comments f.tokens.1 := by simp [ParseState.comments]

theorem commentText_parse (f : SourceFile) {bag : Bag} (hbag : bag.items = []) :
    ∀ c ∈ (f.parse bag).1.comments, c.CommentText := fun c hc =>
  f.commentText_of_mem c (Multiset.mem_of_le (f.comments_parse_le hbag) hc)

end SourceFile

end VhdlStyle
