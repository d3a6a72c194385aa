import Mathlib.Algebra.GroupWithZero.Nat
import VhdlStyle.Proofs.Diagnostics.Found
import VhdlStyle.Proofs.Spacing.Files

/-! # The output does not depend on white space

A block never starts with a blank line, so the one blank line that reaches the tree is not printed.
Two sources with the same words are therefore formatted alike. -/

namespace VhdlStyle

/-! ## Blank lines above units are not printed -/

theorem Block.row_unblank (t : RowTrivia) (body : Doc) :
    ({} : Block).row t.unblank body = ({} : Block).row t body := by
  obtain ⟨leading, blankBefore, inline⟩ := t
  cases leading with
  | nil => cases blankBefore <;> rfl
  | cons c rest => rfl

namespace ContextItem

theorem trivia_unblank (item : ContextItem) : item.unblank.trivia = item.trivia.unblank := by
  cases item <;> rfl

theorem doc_unblank (p : Printer) (item : ContextItem) :
    p.contextItem item.unblank = p.contextItem item := by
  cases item <;> rfl

end ContextItem

namespace DesignUnit

theorem body_unblank (p : Printer) (u : DesignUnit) : p.unitBody u.unblank = p.unitBody u := by
  unfold unblank
  split <;> rfl

theorem doc_unblank (p : Printer) (u : DesignUnit) : p.designUnit u.unblank = p.designUnit u := by
  have hbody := u.body_unblank p
  unfold Printer.designUnit
  rw [hbody]
  obtain ⟨trivia, context, name, body, endLabel, tail⟩ := u
  cases context with
  | nil => simp [unblank, Block.row_unblank]
  | cons item rest =>
      simp [unblank, ContextItem.trivia_unblank, ContextItem.doc_unblank, Block.row_unblank]

theorem constants_unblank (u : DesignUnit) :
    DesignFile.unitConstants u.unblank = DesignFile.unitConstants u := by
  unfold unblank
  split <;> rfl

end DesignUnit

namespace DesignFile

theorem printer_unblank (f : DesignFile) (s : Settings) : f.unblank.printer s = f.printer s := by
  have hconstants : f.unblank.constants = f.constants := by
    rw [constants, constants, unblank, List.flatMap_map]
    simp only [DesignUnit.constants_unblank]
  rw [printer, printer, hconstants]

theorem render_unblank (f : DesignFile) (s : Settings) (newline : Bytes) :
    f.unblank.render s newline = f.render s newline := by
  have hdocument : f.unblank.document s = f.document s := by
    rw [document, document, printer_unblank, Printer.designFile, Printer.designFile, unblank,
      List.foldl_map]
    simp only [DesignUnit.doc_unblank]
  rw [render, render, hdocument]

end DesignFile

/-! ## Gaps between tokens -/

theorem Comment.ofTriviaFrom_uncommented {leading : List Trivia}
    (h : ∀ tr ∈ leading, tr.isComment = false) (newlines : Nat) :
    ofTriviaFrom newlines leading =
      ([], decide (2 ≤ newlines + (leading.map Trivia.newlines).sum)) := by
  induction leading generalizing newlines with
  | nil => rfl
  | cons tr rest ih =>
      rw [List.forall_mem_cons] at h
      have hrest := ih h.2
      unfold ofTriviaFrom
      split
      · rw [hrest, List.map_cons, List.sum_cons, Nat.add_assoc]
      · rename_i hkind
        have hspace : tr.newlines = 0 := by
          cases htr : tr.kind <;> simp_all [Trivia.newlines, Trivia.isComment]
        rw [if_neg (by simp [h.1]), hrest, List.map_cons, List.sum_cons, hspace, Nat.zero_add]

theorem Parse.inlineOf_uncommented {leading : List Trivia}
    (h : ∀ tr ∈ leading, tr.isComment = false) : inlineOf leading = none := by
  induction leading with
  | nil => rfl
  | cons tr rest ih =>
      rw [List.forall_mem_cons] at h
      unfold inlineOf
      split
      · exact ih h.2
      · rename_i hkind
        exact absurd h.1 (by simp [Trivia.isComment, hkind])
      · rfl

namespace SourceFile

/-- The source parses without an error and has neither comments nor blank lines: from one token to
the next there are fewer than two line feeds. -/
structure Dense (f : SourceFile) : Prop where
  clean : ∃ all, f.Finds all ∧ ∀ d ∈ all, d.isError = false
  uncommented : ∀ t ∈ f.tokens.1, ∀ tr ∈ t.leading, tr.isComment = false
  unspaced : ∀ t ∈ f.tokens.1.tail, (t.leading.map Trivia.newlines).sum < 2

/-- The state in which the words of a source are read when nothing else matters. -/
def opened (f : SourceFile) : ParseState := { rest := f.tokens.1, bag := default }

/-- A source without errors is parsed in one run that reports none. -/
theorem parse_of_clean {f : SourceFile} (h : ∃ all, f.Finds all ∧ ∀ d ∈ all, d.isError = false) :
    (DesignFile.parseTokens f.opened).2.errors = 0 ∧ ∀ bag : Bag, bag.items = [] →
      (f.parse bag).1 = (DesignFile.parseTokens f.opened).1 ∧
        (f.parse bag).2.hasErrors = false := by
  obtain ⟨all, hall, hclean⟩ := h
  obtain ⟨design, w, ds, hrun, hparse⟩ := f.exists_run
  have hfound : f.tokens.2 ++ ds = all := hall.eq_of_parse hparse
  have hstart : DesignFile.parseTokens f.opened = (design, (f.opened.withView w).recordAll ds) :=
    hrun f.opened rfl
  refine ⟨?_, fun bag hbag => ⟨by rw [hparse bag hbag, hstart], ?_⟩⟩
  · rw [hstart]
    refine ParseState.recordAll_errors _ fun d hd => hclean d ?_
    rw [← hfound]
    exact List.mem_append_right _ hd
  · rw [hparse bag hbag, hfound]
    exact List.any_eq_false.mpr fun d hd => by simp [hclean d (List.mem_of_mem_take hd)]

theorem format_of_clean {f : SourceFile} (h : ∃ all, f.Finds all ∧ ∀ d ∈ all, d.isError = false)
    (s : Settings) (bag : Bag) (hbag : bag.items = []) : (f.format s bag).1 =
      .ok ((DesignFile.parseTokens f.opened).1.render s (s.newline f.flags.hadCrlf)) := by
  obtain ⟨hdesign, herrors⟩ := (parse_of_clean h).2 bag hbag
  rw [format_eq, parsed_of_no_errors herrors, ← hdesign]
  rfl

/-- Behind its first gap a dense source is nothing but words. -/
theorem Dense.taken {f : SourceFile} (h : f.Dense) :
    (Parse.tail f.opened).1 = [] ∧ (Parse.tail f.opened).2.Plain := by
  have hplain : ∀ t ∈ f.tokens.1.tail, t.Plain := fun t ht => by
    have huncommented := h.uncommented t (List.mem_of_mem_tail ht)
    have hgap := h.unspaced t ht
    refine ⟨?_, Parse.inlineOf_uncommented huncommented⟩
    rw [Comment.ofTrivia, Comment.ofTriviaFrom_uncommented huncommented]
    simp
    omega
  have hfirst := h.uncommented
  cases htokens : f.tokens.1 with
  | nil =>
      refine ⟨by simp [Parse.tail, opened, ParseState.current, htokens]; rfl, ?_, rfl⟩
      simp [Parse.tail, opened, ParseState.setLeading, htokens]
  | cons first rest =>
      rw [htokens] at hplain hfirst
      have huncommented := hfirst first List.mem_cons_self
      refine ⟨?_, ?_, rfl⟩
      · simp [Parse.tail, opened, ParseState.current, htokens, Comment.ofTrivia,
          Comment.ofTriviaFrom_uncommented huncommented]
      · simp only [Parse.tail, opened, ParseState.setLeading, htokens]
        exact List.forall_mem_cons.mpr ⟨.of_leading_nil rfl, hplain⟩

theorem Dense.met {f g : SourceFile} (hf : f.Dense) (hg : g.Dense)
    (hwords : f.tokens.1.map Expr.leafOf = g.tokens.1.map Expr.leafOf) : f.opened.Met g.opened where
  taken := ⟨by rw [ParseState.leaves_taken, ParseState.leaves_taken]; exact hwords,
    by rw [ParseState.errors_taken, ParseState.errors_taken]; rfl, hf.taken.2, hg.taken.2⟩
  left := hf.taken.1
  right := hg.taken.1

end SourceFile

/-- A loaded file remembers whether there was a CR LF pair in its bytes. -/
theorem FileTable.hadCrlf_load (t : FileTable) (path content : Bytes) (flags : FileFlags) :
    (t.load path content flags).1.flags.hadCrlf = (flags.hadCrlf || Source.hasCrlf content) := by
  have hmark (body : Bytes) :
      Source.hasCrlf (Source.byteOrderMark ++ body) = Source.hasCrlf body := rfl
  unfold load Bytes.dropPrefix?
  by_cases hprefix : Source.byteOrderMark.isPrefixOf content = true
  · obtain ⟨body, rfl⟩ := List.isPrefixOf_iff_prefix.mp hprefix
    rw [if_pos hprefix, hmark, List.drop_left]
    rfl
  · rw [if_neg hprefix]
    rfl

/-- Two sources without errors, comments and blank lines that have the same kinds and texts of
tokens, and of which both or neither were read from bytes with a CR LF pair, are formatted to the
same text. -/
theorem format_ignores_white_space (s : Settings) (f g : SourceFile) (hf : f.Dense) (hg : g.Dense)
    (hwords : f.tokens.1.map Expr.leafOf = g.tokens.1.map Expr.leafOf)
    (hcrlf : f.flags.hadCrlf = g.flags.hadCrlf) (bag bag' : Bag) (hbag : bag.items = [])
    (hbag' : bag'.items = []) :
    ∃ text, (f.format s bag).1 = .ok text ∧ (g.format s bag').1 = .ok text := by
  refine ⟨_, SourceFile.format_of_clean hf.clean s bag hbag, ?_⟩
  have hsame := DesignFile.parseTokens_unblank (hf.met hg hwords)
    (Nat.le_of_eq (SourceFile.parse_of_clean hf.clean).1)
  rw [SourceFile.format_of_clean hg.clean s bag' hbag', ← DesignFile.render_unblank, ← hsame,
    DesignFile.render_unblank, hcrlf]

/-- An entity on one line, and below a blank line on three. -/
theorem format_ignores_white_space_of_entity :
    let f := SourceFile.ofBytes "a.vhd" "entity e is end;\r\n"
    let g := SourceFile.ofBytes "b.vhd" "\n\n \nentity\te\r\nis\n end ;"
    ∃ text, (f.format {} (Bag.ofLimit 9)).1 = .ok text ∧
      (g.format {} (Bag.ofLimit 1)).1 = .ok text := by
  intro f g
  have hf : f.Dense := by
    refine ⟨⟨[], ⟨Bag.ofLimit 9, rfl, ?_, ?_⟩, by simp⟩, ?_, ?_⟩ <;> decide +kernel
  have hg : g.Dense := by
    refine ⟨⟨[], ⟨Bag.ofLimit 9, rfl, ?_, ?_⟩, by simp⟩, ?_, ?_⟩ <;> decide +kernel
  have hwords : f.tokens.1.map Expr.leafOf = g.tokens.1.map Expr.leafOf := by decide +kernel
  have hcrlf : f.flags.hadCrlf = g.flags.hadCrlf := by
    have hone : f.flags.hadCrlf = true := FileTable.hadCrlf_load ..
    have hother : g.flags.hadCrlf = true := FileTable.hadCrlf_load ..
    rw [hone, hother]
  exact format_ignores_white_space {} f g hf hg hwords hcrlf (Bag.ofLimit 9) (Bag.ofLimit 1) rfl rfl

end VhdlStyle
