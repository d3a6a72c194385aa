import VhdlStyle.Proofs.Comments.Collected
import VhdlStyle.Proofs.Layout.Writing
import VhdlStyle.Proofs.Lexing.Munch
import VhdlStyle.Proofs.Printing.Words

/-! # Comments as the lexer reads them

A comment starts with its mark, which trimming keeps, and a line comment ends before the end of its
line. -/

namespace VhdlStyle

/-! ## Trimming -/

namespace Bytes

variable {p : UInt8 → Bool} {b : UInt8}

/-- Trimming on the right stops at a byte that is kept. -/
theorem exists_trimRight_cons (hb : p b = false) (s : Bytes) :
    ∃ s', trimRight p (b :: s) = b :: s' := by
  rw [trimRight, List.reverse_cons, List.dropWhile_append]
  split
  · exact ⟨[], by simp [hb]⟩
  · exact ⟨_, List.reverse_concat⟩

/-- What stands in front of a byte that is kept is kept too. -/
theorem exists_trimRight_cons_cons (hb : p b = false) (a : UInt8) (s : Bytes) :
    ∃ s', trimRight p (a :: b :: s) = a :: b :: s' := by
  obtain ⟨s', hs'⟩ := exists_trimRight_cons hb s
  have hrest : ((b :: s).reverse.dropWhile p).isEmpty = false := by
    rw [List.isEmpty_eq_false_iff]
    intro hnil
    rw [trimRight, hnil] at hs'
    simp at hs'
  refine ⟨s', ?_⟩
  rw [trimRight, List.reverse_cons, List.dropWhile_append, hrest, if_neg Bool.false_ne_true,
    List.reverse_concat, ← hs', trimRight]

theorem mem_of_mem_trimRight {s : Bytes} (h : b ∈ trimRight p s) : b ∈ s := by
  rw [trimRight, List.mem_reverse] at h
  exact List.mem_reverse.mp ((List.dropWhile_sublist p).subset h)

end Bytes

/-! ## Comments in front of tokens -/

/-- The trivia was found at the front of a text. -/
def Trivia.Scanned (tr : Trivia) : Prop :=
  ∃ first rest piece, TriviaPiece.scan? first rest = some piece ∧ tr.kind = piece.kind ∧
    tr.text = first :: rest.take piece.more

namespace Lexer

theorem triviaN_scanned (fuel : Nat) (lx : Lexer) : ∀ tr ∈ (triviaN fuel lx).1, tr.Scanned := by
  induction fuel generalizing lx with
  | zero => simp [triviaN]
  | succ fuel ih =>
      unfold triviaN
      split
      · simp
      · rename_i first rest hrest
        split
        · simp
        · rename_i piece hpiece
          rw [List.forall_mem_cons]
          refine ⟨⟨first, rest, piece, hpiece, rfl, ?_⟩, ih _⟩
          rw [hrest, List.take_succ_cons]

theorem scanToken_scanned (lx : Lexer) : ∀ tr ∈ lx.scanToken.1.leading, tr.Scanned := by
  have htrivia := triviaN_scanned lx.rest.length lx
  unfold scanToken
  dsimp only [trivia]
  split <;> exact htrivia

theorem scanToken_eof (lx : Lexer) (h : lx.scanToken.1.kind = .eof) : lx.scanToken.1.text = [] := by
  unfold scanToken at h ⊢
  dsimp only at h ⊢
  split at h
  · rename_i hrest
    rw [hrest]
  · exact absurd h (Lexeme.scan_kind _ _ _)

theorem triviaN_faults (fuel : Nat) (lx : Lexer) :
    ∀ d ∈ (triviaN fuel lx).2.1, d.isError = true := by
  induction fuel generalizing lx with
  | zero => simp [triviaN]
  | succ fuel ih =>
      unfold triviaN
      split
      · simp
      · split
        · simp
        · rename_i piece _
          rw [List.forall_mem_append]
          refine ⟨?_, ih _⟩
          split
          · simp
          · simp [Diagnostic.ofError, Diagnostic.isError]

/-- Whatever is wrong with a token is an error. -/
theorem scanToken_faults (lx : Lexer) : ∀ d ∈ lx.scanToken.2.1, d.isError = true := by
  have htrivia := triviaN_faults lx.rest.length lx
  unfold scanToken
  dsimp only [trivia]
  split
  · exact htrivia
  · rw [List.forall_mem_append]
    refine ⟨htrivia, ?_⟩
    split
    · simp
    · simp [Diagnostic.ofError, Diagnostic.isError]

/-- What holds of a token and its faults wherever it is read holds of all tokens and faults. -/
theorem forall_allN {P : Token → Prop} {Q : Diagnostic → Prop} (htoken : ∀ lx : Lexer, P lx.scanToken.1)
    (hfaults : ∀ lx : Lexer, ∀ d ∈ lx.scanToken.2.1, Q d) (fuel : Nat) (lx : Lexer)
    (hlook : lx.look = none) :
    (∀ t ∈ (allN fuel lx).1, P t) ∧ ∀ d ∈ (allN fuel lx).2.1, Q d := by
  induction fuel generalizing lx with
  | zero => simp [allN]
  | succ fuel ih =>
      have hnext : lx.next = lx.scanToken := by rw [next, hlook]
      rw [allN, hnext]
      by_cases hkind : lx.scanToken.1.kind = .eof
      · simpa [hkind] using ⟨htoken lx, hfaults lx⟩
      · obtain ⟨htokens, hmore⟩ := ih _ (lx.scanToken_look.trans hlook)
        simp only [beq_iff_eq, hkind, if_false, List.forall_mem_cons, List.forall_mem_append]
        exact ⟨⟨htoken lx, htokens⟩, hfaults lx, hmore⟩

end Lexer

namespace SourceFile

variable (f : SourceFile)

theorem forall_tokens {P : Token → Prop} (h : ∀ lx : Lexer, P lx.scanToken.1) :
    ∀ t ∈ f.tokens.1, P t :=
  (Lexer.forall_allN h Lexer.scanToken_faults (f.content.length + 2) (Lexer.ofFile f) rfl).1

theorem tokens_faults : ∀ d ∈ f.tokens.2, d.isError = true :=
  (Lexer.forall_allN (P := fun _ => True) (fun _ => trivial) Lexer.scanToken_faults
    (f.content.length + 2) (Lexer.ofFile f) rfl).2

end SourceFile

/-! ## Texts of comments -/

/-- The text is a comment, and one line if it is a line comment. -/
structure Bytes.CommentText (c : Bytes) : Prop where
  isComment : c.isComment = true
  line : c.isLineComment = true → Bytes.lf ∉ c ∧ Writer.Trimmed c

/-- A comment starts with its mark; a line comment is read up to the end of its line. -/
theorem TriviaPiece.scan?_comment {first : UInt8} {rest : Bytes} {piece : TriviaPiece}
    (h : scan? first rest = some piece)
    (hkind : piece.kind = .lineComment ∨ piece.kind = .blockComment) :
    (∃ s, first :: rest.take piece.more = ('-' : UInt8) :: ('-' : UInt8) :: s ∧ Bytes.lf ∉ s) ∨
      piece.kind = .blockComment ∧
        ∃ s, first :: rest.take piece.more = ('/' : UInt8) :: ('*' : UInt8) :: s := by
  unfold scan? at h
  split at h
  · obtain rfl := Option.some.inj h
    simp at hkind
  · split at h
    · obtain rfl := Option.some.inj h
      simp at hkind
    · split at h
      · rename_i hdash
        simp only [Bool.and_eq_true, beq_iff_eq, List.head?_eq_some_iff] at hdash
        obtain ⟨hfirst, more, hrest⟩ := hdash
        obtain rfl := Option.some.inj h
        refine .inl ⟨more.takeWhile (· != Bytes.lf), ?_, ?_⟩
        · rw [Lexeme.countWhile, ← List.prefix_iff_eq_take.mp (List.takeWhile_prefix _), hfirst, hrest]
          rfl
        · intro hlf
          simpa using List.mem_takeWhile_imp hlf
      · split at h
        · rename_i hslash
          simp only [Bool.and_eq_true, beq_iff_eq, List.head?_eq_some_iff] at hslash
          obtain ⟨hfirst, more, hrest⟩ := hslash
          obtain rfl := Option.some.inj h
          refine .inr ⟨rfl, more.take (blockBody (rest.drop 1)).1, ?_⟩
          rw [hfirst, hrest, List.take_succ_cons]
        · simp at h

/-- Trimming a comment keeps its mark. -/
theorem Comment.exists_trim {b : UInt8} (hb : b = ('-' : UInt8) ∨ b = ('*' : UInt8)) (a : UInt8)
    (s : Bytes) : ∃ s', Comment.trim (a :: b :: s) = a :: b :: s' := by
  rcases hb with rfl | rfl
  · exact Bytes.exists_trimRight_cons_cons (by decide) a s
  · exact Bytes.exists_trimRight_cons_cons (by decide) a s

theorem Writer.trimmed_trim (s : Bytes) : Trimmed (Comment.trim s) := by
  refine List.rdropWhile_eq_self_iff.mpr fun hne hblank => ?_
  refine List.rdropWhile_last_not _ _ hne ?_
  rw [isBlank, Bool.or_eq_true] at hblank
  rw [Bool.or_assoc, Bool.or_eq_true, Bool.or_eq_true]
  exact hblank.imp_right .inl

theorem Trivia.Scanned.commentText {tr : Trivia} (h : tr.Scanned) (hcomment : tr.isComment = true) :
    (Comment.trim tr.text).CommentText := by
  obtain ⟨first, rest, piece, hscan, hkind, htext⟩ := h
  rw [isComment, Bool.or_eq_true, beq_iff_eq, beq_iff_eq, hkind] at hcomment
  rcases piece.scan?_comment hscan hcomment with ⟨s, hs, hlf⟩ | ⟨-, s, hs⟩
  · obtain ⟨s', hs'⟩ := Comment.exists_trim (.inl rfl) ('-' : UInt8) s
    rw [htext, hs]
    refine ⟨by rw [hs']; rfl, fun _ => ⟨fun hmem => ?_, Writer.trimmed_trim _⟩⟩
    have hnone := Bytes.mem_of_mem_trimRight hmem
    simp only [List.mem_cons, hlf, or_false] at hnone
    exact absurd hnone (by decide)
  · obtain ⟨s', hs'⟩ := Comment.exists_trim (.inr rfl) ('/' : UInt8) s
    rw [htext, hs, hs']
    refine ⟨rfl, fun hline => ?_⟩
    simp +decide [Bytes.isLineComment] at hline

/-- Only a block comment goes on over the end of a line. -/
theorem Trivia.Scanned.lf_not_mem {tr : Trivia} (h : tr.Scanned) (hcomment : tr.isComment = true)
    (hblock : tr.kind ≠ .blockComment) : Bytes.lf ∉ tr.text := by
  obtain ⟨first, rest, piece, hscan, hkind, htext⟩ := h
  rw [isComment, Bool.or_eq_true, beq_iff_eq, beq_iff_eq, hkind] at hcomment
  rcases piece.scan?_comment hscan hcomment with ⟨s, hs, hlf⟩ | ⟨hpiece, -⟩
  · rw [htext, hs, List.mem_cons, List.mem_cons]
    simpa using ⟨by decide, hlf⟩
  · exact absurd (hkind.trans hpiece) hblock

/-- The comments in front of the tokens of a source. -/
theorem SourceFile.commentText_of_mem (f : SourceFile) :
    ∀ c ∈ Token.comments f.tokens.1, c.CommentText := by
  intro c hc
  have hscanned : ∀ t ∈ f.tokens.1, ∀ tr ∈ t.leading, tr.Scanned :=
    f.forall_tokens Lexer.scanToken_scanned
  rw [Token.comments, Trivia.comments, Multiset.mem_coe] at hc
  obtain ⟨tr, htr, rfl⟩ := List.mem_map.mp hc
  obtain ⟨hmem, hcomment⟩ := List.mem_filter.mp htr
  obtain ⟨t, ht, hleading⟩ := List.mem_flatMap.mp hmem
  exact (hscanned t ht tr hleading).commentText hcomment

end VhdlStyle
