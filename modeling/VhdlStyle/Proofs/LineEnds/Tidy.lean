import VhdlStyle.Proofs.Layout.Writing
import VhdlStyle.Proofs.LineEnds.Exchange
import VhdlStyle.Proofs.LineEnds.Returns

/-! # No blanks at the ends of lines

In what is written no blank stands before a line feed. Of such a text reading takes one carriage
return at the end of each line that has any. -/

namespace VhdlStyle

namespace Bytes

/-- No blank stands directly before a line feed. -/
def isTidy : Bytes → Bool
  | [] => true
  | b :: rest => !(Writer.isBlank b && rest.head? == some lf) && isTidy rest

theorem isTidy_cons {b : UInt8} {s : Bytes} : isTidy (b :: s) = true ↔
    (Writer.isBlank b = true → s.head? ≠ some lf) ∧ isTidy s = true := by
  rw [isTidy, Bool.and_eq_true]
  refine and_congr_left fun _ => ?_
  cases Writer.isBlank b <;> simp

theorem isTidy_of_not_mem {s : Bytes} (hs : lf ∉ s) : s.isTidy = true := by
  induction s with
  | nil => rfl
  | cons b s ih =>
      rw [List.mem_cons, not_or] at hs
      exact isTidy_cons.mpr ⟨fun _ hhead => hs.2 (List.mem_of_mem_head? hhead), ih hs.2⟩

/-- A text that ends no line leaves the lines before it as they are. -/
theorem isTidy_append {s t : Bytes} (hs : s.isTidy = true) (ht : lf ∉ t) :
    isTidy (s ++ t) = true := by
  induction s with
  | nil => exact isTidy_of_not_mem ht
  | cons b s ih =>
      rw [isTidy_cons] at hs
      refine isTidy_cons.mpr ⟨fun hb hhead => ?_, ih hs.2⟩
      cases s with
      | nil => exact ht (List.mem_of_mem_head? hhead)
      | cons c s => exact hs.1 hb hhead

theorem isTidy_left {s t : Bytes} (h : isTidy (s ++ t) = true) : s.isTidy = true := by
  induction s with
  | nil => rfl
  | cons b s ih =>
      rw [List.cons_append, isTidy_cons] at h
      refine isTidy_cons.mpr ⟨fun hb hhead => h.1 hb ?_, ih h.2⟩
      rw [List.head?_append, hhead]
      rfl

theorem isTidy_right {s t : Bytes} (h : isTidy (s ++ t) = true) : t.isTidy = true := by
  induction s with
  | nil => exact h
  | cons b s ih => exact ih (isTidy_cons.mp h).2

/-- A line may end where no blank stands. -/
theorem isTidy_concat_lf {s : Bytes} (hs : s.isTidy = true) (htrimmed : Writer.Trimmed s) :
    isTidy (s ++ [lf]) = true := by
  induction s with
  | nil => rfl
  | cons b s ih =>
      rw [isTidy_cons] at hs
      cases s with
      | nil =>
          refine isTidy_cons.mpr ⟨fun hb => ?_, rfl⟩
          have hlast := List.rdropWhile_eq_self_iff.mp htrimmed (by simp)
          exact absurd hb hlast
      | cons c s =>
          have hrest : Writer.Trimmed (c :: s) := by
            refine List.rdropWhile_eq_self_iff.mpr fun hne => ?_
            have hlast := List.rdropWhile_eq_self_iff.mp htrimmed (by simp)
            rwa [List.getLast_cons hne] at hlast
          exact isTidy_cons.mpr ⟨hs.1, ih hs.2 hrest⟩

end Bytes

/-! ## Tidy output -/

namespace Writer

open Bytes

/-- What was written so far is tidy. -/
def Tidy (w : Writer) : Prop := isTidy w.out.reverse = true

variable {o : LayoutOptions} {w : Writer}

theorem Tidy.push (h : w.Tidy) {s : Bytes} (hs : lf ∉ s) : (w.push s).Tidy := by
  rw [Tidy, Writer.push, List.reverse_append, List.reverse_reverse]
  exact isTidy_append h hs

theorem Tidy.trim (h : w.Tidy) : isTidy (w.out.dropWhile isBlank).reverse = true := by
  refine isTidy_left (t := (w.out.takeWhile isBlank).reverse) ?_
  rw [← List.reverse_append, List.takeWhile_append_dropWhile]
  exact h

theorem Tidy.newline (h : w.Tidy) (ho : o.newline = "\n") (indent : Int) :
    (w.newline o indent).Tidy := by
  have htrimmed := trimmed_trimRight w.out.reverse
  rw [trimRight, List.reverse_reverse] at htrimmed
  have hend := isTidy_concat_lf h.trim htrimmed
  rw [Tidy, Writer.newline, ho, List.reverse_append, List.reverse_reverse]
  exact hend

theorem Tidy.startLine (h : w.Tidy) (o : LayoutOptions) : (w.startLine o).Tidy := by
  rw [Writer.startLine]
  split
  · exact h
  · refine h.push ?_
    split
    · exact fun hlf => absurd (List.eq_of_mem_replicate hlf) (by decide)
    · exact fun hlf => absurd (List.eq_of_mem_replicate hlf) (by decide)

theorem Tidy.textLines (h : w.Tidy) (ho : o.newline = "\n") {lines : List Bytes}
    (hlines : ∀ line ∈ lines, lf ∉ line) : (textLines o w lines).Tidy := by
  induction lines generalizing w with
  | nil => exact h
  | cons line lines ih =>
      rw [List.forall_mem_cons] at hlines
      have hline : ((w.newline o 0).push line).Tidy := (h.newline ho 0).push hlines.1
      exact ih (w := { (w.newline o 0).push line with
        col := Cells.width line, atLineStart := false }) hline hlines.2

/-- Every step leaves what is written tidy. -/
theorem tidy_inStep (ho : o.newline = "\n") : InStep o o fun w w' => w = w' ∧ w.Tidy where
  width := rfl
  column := by
    rintro w _ ⟨rfl, -⟩
    rfl
  newline := by
    rintro w _ indent ⟨rfl, h⟩
    exact ⟨rfl, h.newline ho indent⟩
  text := by
    rintro w _ s ⟨rfl, h⟩
    refine ⟨rfl, ?_⟩
    have hlines : ∀ line ∈ split lf s, lf ∉ line := not_mem_of_split s
    obtain ⟨first, rest, hsplit⟩ := List.exists_cons_of_ne_nil (split_ne_nil lf s)
    rw [hsplit, List.forall_mem_cons] at hlines
    simp only [text, hsplit]
    refine Tidy.textLines ?_ ho hlines.2
    split
    · exact h
    · exact (h.startLine o).push hlines.1
  spaces := by
    rintro w _ n ⟨rfl, h⟩
    refine ⟨rfl, ?_⟩
    rw [spaces]
    split
    · exact h
    · exact (h.startLine o).push fun hlf => absurd (List.eq_of_mem_replicate hlf) (by decide)

end Writer

namespace Doc

open Bytes

variable (d : Doc) {o : LayoutOptions}

theorem isTidy_render (ho : o.newline = "\n") : (d.render o).isTidy = true := by
  have hnormal : o.normalize.newline = "\n" := by
    rw [LayoutOptions.normalize, ho]
    rfl
  exact ((Writer.tidy_inStep hnormal).write 0 false 0 d (w := {}) ⟨rfl, rfl⟩).2.trim

/-- No line of a page ends in a blank. -/
theorem isTidy_page (ho : o.newline = "\n") : (d.page o).isTidy = true := by
  rw [page]
  split
  · rfl
  · have htrimmed : Writer.Trimmed (d.render o) := by
      have h := Writer.trimmed_trimRight (write o.normalize 0 false 0 d {}).out.reverse
      rwa [trimRight, List.reverse_reverse] at h
    rw [ho]
    exact isTidy_concat_lf (d.isTidy_render ho) htrimmed

end Doc

/-! ## Reading tidy texts -/

namespace Source

open Bytes

/-- Reading takes one carriage return from the end of each line that has any. -/
theorem lineReturns_unifyNewlines {n : Nat} {s : Bytes} (h : s.isTidy = true)
    (hstart : s.head? = some lf → n = 0) :
    lineReturns n (unifyNewlines s) = (lineReturns n s).map (· - 1) := by
  induction s using unifyNewlines.induct generalizing n with
  | case1 => rfl
  | case2 rest ih =>
      have hrest := (isTidy_cons.mp (isTidy_cons.mp h).2).2
      change lineReturns n (unifyNewlines (cr :: lf :: rest)) =
        (lineReturns n (cr :: lf :: rest)).map (· - 1)
      rw [unifyNewlines_crlf, lineReturns_lf, lineReturns_cons n (by decide), returnsAfter_cr,
        lineReturns_lf, List.map_cons, ih hrest fun _ => rfl]
      rfl
  | case3 b rest hpair ih =>
      obtain ⟨hblank, hrest⟩ := isTidy_cons.mp h
      have hends : ¬(b = cr ∧ rest.head? = some lf) := by
        rintro ⟨hb, hhead⟩
        obtain ⟨tail, rfl⟩ := List.head?_eq_some_iff.mp hhead
        exact hpair tail hb rfl
      rw [unifyNewlines_cons hends]
      by_cases hb : b = lf
      · subst hb
        rw [lineReturns_lf, lineReturns_lf, List.map_cons, ih hrest (fun _ => rfl), hstart rfl]
      · rw [lineReturns_cons n hb, lineReturns_cons n hb]
        -- a line that ends here ends in neither a carriage return nor a blank
        refine ih hrest fun hhead => returnsAfter_other n (fun hcr => hends ⟨hcr, hhead⟩) ?_
        exact Bool.eq_false_iff.mpr fun hb => hblank hb hhead

/-- Where no line ends in a carriage return there is no CR LF pair. -/
theorem hasCrlf_of_lineReturns {n : Nat} {s : Bytes} (h : ∀ k ∈ lineReturns n s, k = 0) :
    hasCrlf s = false := by
  induction s using unifyNewlines.induct generalizing n with
  | case1 => rfl
  | case2 rest ih =>
      change ∀ k ∈ lineReturns n (cr :: lf :: rest), k = 0 at h
      rw [lineReturns_cons n (by decide), lineReturns_lf, List.forall_mem_cons] at h
      exact absurd h.1 (Nat.succ_ne_zero n)
  | case3 b rest hpair ih =>
      rw [hasCrlf.eq_3 b rest fun tail hb hrest => hpair tail hb hrest]
      by_cases hb : b = lf
      · subst hb
        rw [lineReturns_lf, List.forall_mem_cons] at h
        exact ih h.2
      · rw [lineReturns_cons n hb] at h
        exact ih h

theorem body_append (content : Bytes) : ∃ mark, content = mark ++ body content ∧
    (mark = [] ∨ mark = byteOrderMark) := by
  rw [body, dropPrefix?]
  split
  · rename_i hfront
    obtain ⟨rest, rfl⟩ := List.isPrefixOf_iff_prefix.mp hfront
    exact ⟨byteOrderMark, by simp, .inr rfl⟩
  · exact ⟨[], rfl, .inl rfl⟩

/-- The byte order mark is on no account with line ends. -/
theorem lineReturns_body (content : Bytes) :
    lineReturns 0 (body content) = lineReturns 0 content := by
  obtain ⟨mark, hcontent, rfl | rfl⟩ := body_append content
  · exact congrArg (lineReturns 0) hcontent.symm
  · conv_rhs => rw [hcontent, lineReturns_append]
    rfl

theorem isTidy_body {content : Bytes} (h : content.isTidy = true) :
    (body content).isTidy = true := by
  obtain ⟨mark, hcontent, -⟩ := body_append content
  rw [hcontent] at h
  exact isTidy_right h

end Source

end VhdlStyle
