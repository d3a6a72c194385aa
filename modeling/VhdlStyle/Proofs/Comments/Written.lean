import VhdlStyle.Proofs.Comments.Origin
import VhdlStyle.Proofs.Parsing.YieldsTrees
import VhdlStyle.Proofs.Printing.Units
import VhdlStyle.Proofs.Text.Splitting

/-! # Every comment is written once, at the end of a line

The document of a design shows the comments of the design, and its layout writes nothing behind
them. For a source without errors the comments are those of its tokens, and no other word is taken
for one. -/

namespace VhdlStyle

/-! ## Pieces behind a comment -/

namespace Piece

/-- One line is written without the blanks at its end. -/
theorem written_line (newline : Bytes) {s : Bytes} (h : Bytes.lf ∉ s) :
    written newline s = Bytes.trimRight Writer.isBlank s := by
  rw [written, Bytes.split_of_not_mem h, List.map_singleton, List.intercalate_singleton]

/-- Blanks alone are not written. -/
theorem written_blank (newline : Bytes) {s : Bytes} (h : s.all Writer.isBlank = true) :
    written newline s = [] := by
  rw [List.all_eq_true] at h
  rw [written_line newline fun hlf => Bool.false_ne_true (h _ hlf)]
  exact List.rdropWhile_eq_nil_iff.mpr h

/-- Where the end of a line is due it is written first. -/
theorem output_of_due (newline : Bytes) {ps : List Piece} {after : Bool}
    (h : run true ps = some after) :
    output newline ps = [] ∨ newline <+: output newline ps := by
  induction ps with
  | nil => exact .inl rfl
  | cons p ps ih =>
      cases p with
      | text s =>
          by_cases hblank : s.all Writer.isBlank = true
          · rw [run_cons, step, if_pos hblank] at h
            rw [output_cons, bytes, written_blank newline hblank]
            exact ih h
          · simp [step, hblank] at h
      | blank tab => simp [step] at h
      | newline => exact .inr ⟨output newline ps, rfl⟩

/-- Behind a comment the line ends. -/
theorem output_after_comment (newline : Bytes) {before after : List Piece} {c : Bytes}
    {due due' : Bool} (hcomment : c.isComment = true)
    (h : run due (before ++ .text c :: after) = some due') :
    output newline after = [] ∨ newline <+: output newline after := by
  have hshown : ¬c.all Writer.isBlank = true := by
    match c, hcomment with
    | a :: b :: rest, hcomment =>
        simp only [Bytes.isComment, Bool.or_eq_true, Bool.and_eq_true, beq_iff_eq] at hcomment
        rcases hcomment with ⟨rfl, -⟩ | ⟨rfl, -⟩ <;> simp +decide
  rw [run_append, Option.bind_eq_some_iff] at h
  obtain ⟨middle, -, h⟩ := h
  rw [run_cons, step, if_neg hshown] at h
  cases middle with
  | true => simp at h
  | false =>
      rw [if_neg Bool.false_ne_true, hcomment] at h
      exact output_of_due newline h

end Piece

/-! ## Designs without lexical faults -/

/-- Without a lexical fault the tokens hold words in code. -/
theorem SourceFile.tokens_inCode {f : SourceFile} (h : f.tokens.2 = []) :
    ∀ t ∈ f.tokens.1, t.InCode := by
  have heof : ∀ t ∈ f.tokens.1, t.kind = .eof → t.text = [] :=
    f.forall_tokens Lexer.scanToken_eof
  intro t ht
  rw [Token.InCode]
  split
  · rename_i hkind
    exact heof t ht hkind
  · rename_i hkind
    have hword : Expr.leafOf t ∈ f.words :=
      List.mem_map_of_mem (List.mem_filter.mpr ⟨ht, by simpa using hkind⟩)
    exact (SourceFile.lexed h).sound _ hword

namespace SourceFile

variable {f : SourceFile} {all : List Diagnostic} {bag : Bag}

/-- What is wrong with a token is an error. -/
theorem Finds.tokens_clean (hall : f.Finds all) (hclean : ∀ d ∈ all, d.isError = false) :
    f.tokens.2 = [] := by
  obtain ⟨design, w, ds, -, hparse⟩ := f.exists_run
  rw [← hall.eq_of_parse hparse, List.forall_mem_append] at hclean
  refine List.eq_nil_iff_forall_not_mem.mpr fun d hd => ?_
  exact Bool.false_ne_true ((hclean.1 d hd).symm.trans (f.tokens_faults d hd))

/-- The words of the design are those of the source. -/
theorem inCode_parse (hfaults : f.tokens.2 = []) (hbag : bag.items = []) :
    (f.parse bag).1.InCode := by
  obtain ⟨design, w, ds, hrun, hparse⟩ := f.exists_run
  have hyields := DesignFile.yields_parseTokens.yields { rest := f.tokens.1, bag := default }
    (tokens_inCode hfaults)
  rw [hrun _ rfl] at hyields
  rwa [hparse bag hbag]

end SourceFile

/-! ## Files in print -/

/-- What a file shows besides code are comments of it. -/
theorem DesignFile.remarks_document {f : DesignFile} (hwords : f.InCode) (s : Settings) :
    Doc.remarksOf (f.document s).leaves = f.comments.filter fun c => !c.isCode := by
  have heq := ((f.printer s).shows_designFile hwords).remarks_eq
  rw [Doc.remarks, Doc.allLeaves, Doc.allLeaves, List.append_nil] at heq
  exact heq

/-- A file is written as the texts of its document; the line ends behind each comment. -/
theorem DesignFile.render_comments {f : DesignFile} (hwords : f.InCode)
    (hcomments : ∀ c ∈ f.comments, c.CommentText) (s : Settings) {newline : Bytes}
    (hnewline : IsNewline newline) :
    ∃ ps : List Piece, f.render s newline = Piece.output newline ps ∧
      Piece.texts ps = (f.document s).leaves ∧
      Doc.commentsOf (f.document s).leaves = f.comments ∧
      ∃ due, Piece.run false ps = some due := by
  obtain ⟨ps, last, hlaid, hlast, hpage⟩ :=
    (f.document s).page_laid (o := s.layout newline) hnewline
  obtain ⟨due, -, hrun⟩ :=
    ((f.printer s).shows_designFile hwords).flows ps hlaid false (Bool.le_refl _)
  have htexts : Piece.texts ps = (f.document s).leaves := by
    rw [hlaid.texts_eq, itemLeaves_cons]
    exact List.append_nil _
  have hshown : Doc.commentsOf (f.document s).leaves = f.comments := by
    rw [Doc.commentsOf_eq, f.remarks_document hwords s, Multiset.filter_filter]
    refine Multiset.filter_eq_self.mpr fun c hc => ?_
    have hcomment := (hcomments c hc).isComment
    simp [Bytes.isCode, hcomment]
  refine ⟨ps ++ last, hpage, ?_, hshown, ?_⟩
  · rcases hlast with rfl | rfl <;> simpa using htexts
  · rw [Piece.run_append, hrun]
    rcases hlast with rfl | rfl
    · exact ⟨due, rfl⟩
    · exact ⟨false, rfl⟩

/-- Printing what was read without errors writes every comment of the design once and takes
nothing else for one. A line comment is written as it is, a block comment with its lines ended as
those of the output; behind either the line or the output ends. -/
theorem comments_written_once (f : SourceFile) (all : List Diagnostic) (hall : f.Finds all)
    (hclean : ∀ d ∈ all, d.isError = false) (bag : Bag) (hbag : bag.items = []) (s : Settings)
    (newline : Bytes) (hnewline : IsNewline newline) :
    let design := (f.parse bag).1
    ∃ ps : List Piece, design.render s newline = Piece.output newline ps ∧
      Piece.texts ps = (design.document s).leaves ∧
      ((Piece.texts ps).filter Bytes.isComment : Multiset Bytes) = design.comments ∧
      ∀ before c after, ps = before ++ .text c :: after → c.isComment = true →
        (c.isLineComment = true → Piece.written newline c = c) ∧
          (Piece.output newline after = [] ∨ newline <+: Piece.output newline after) := by
  intro design
  have hcomments := f.commentText_parse hbag
  have hwords := SourceFile.inCode_parse (hall.tokens_clean hclean) hbag
  obtain ⟨ps, hrender, htexts, hshown, due, hrun⟩ :=
    DesignFile.render_comments hwords hcomments s hnewline
  rw [← htexts] at hshown
  refine ⟨ps, hrender, htexts, hshown, ?_⟩
  rintro before c after rfl hcomment
  refine ⟨fun hline => ?_, Piece.output_after_comment newline hcomment hrun⟩
  have hmem : c ∈ design.comments := by
    rw [← hshown, Doc.commentsOf, Multiset.mem_coe, List.mem_filter]
    exact ⟨by simp, hcomment⟩
  obtain ⟨hlf, htrimmed⟩ := (hcomments c hmem).line hline
  rw [Piece.written_line newline hlf]
  exact htrimmed

/-- Comments above a row of a port clause, behind it and in front of its end. -/
theorem comments_written_in_ports :
    let f := SourceFile.ofBytes "a.vhd" "entity e is port(--a\n/*b*/x:in t--c \n);--d\nend;"
    let design := (f.parse (Bag.ofLimit 9)).1
    ∃ ps : List Piece, design.render {} "\r\n" = Piece.output "\r\n" ps ∧
      ((Piece.texts ps).filter Bytes.isComment : Multiset Bytes) =
        (["--a", "/*b*/", "--c", "--d"] : List Bytes) := by
  intro f design
  have hfinds : f.Finds [] := ⟨Bag.ofLimit 9, rfl, by decide +kernel, by decide +kernel⟩
  obtain ⟨ps, hrender, -, hcomments, -⟩ :=
    comments_written_once f [] hfinds (by simp) (Bag.ofLimit 9) rfl {} "\r\n" (by decide)
  refine ⟨ps, hrender, ?_⟩
  rw [hcomments]
  decide +kernel

end VhdlStyle
