import Mathlib.Data.List.DropRight
import VhdlStyle.Proofs.Diagnostics.Found
import VhdlStyle.Proofs.Layout.SideBySide
import VhdlStyle.Proofs.Text.Splitting

/-! # Line ends in and out

A file whose lines end in CR LF is read as the same file with LF, and a document laid out for CR LF
is the document laid out for LF with every LF replaced. Formatting therefore does not see which of
the two line ends a source has; it only writes them back. -/

namespace VhdlStyle

namespace Source

open Bytes

/-- Every LF becomes a CR LF pair. -/
def withCrlf (s : Bytes) : Bytes := s.flatMap fun b => if b == lf then [cr, lf] else [b]

@[simp] theorem withCrlf_append (s t : Bytes) : withCrlf (s ++ t) = withCrlf s ++ withCrlf t :=
  List.flatMap_append

theorem withCrlf_lf (s : Bytes) : withCrlf (lf :: s) = cr :: lf :: withCrlf s := rfl

theorem withCrlf_cons {b : UInt8} (hb : b ≠ lf) (s : Bytes) :
    withCrlf (b :: s) = b :: withCrlf s := by
  simp [withCrlf, hb]

theorem withCrlf_of_not_mem {s : Bytes} (hs : lf ∉ s) : withCrlf s = s := by
  induction s with
  | nil => rfl
  | cons b s ih =>
      rw [List.mem_cons, not_or] at hs
      rw [withCrlf_cons (Ne.symm hs.1), ih hs.2]

/-! ## Reading -/

theorem unifyNewlines_cons {b : UInt8} {s : Bytes} (hpair : ¬(b = cr ∧ s.head? = some lf)) :
    unifyNewlines (b :: s) = b :: unifyNewlines s := by
  cases s with
  | nil => rw [unifyNewlines.eq_3 _ _ (by simp)]
  | cons c s =>
      refine unifyNewlines.eq_3 b (c :: s) fun rest hb hs => hpair ⟨hb, ?_⟩
      rw [hs]
      rfl

theorem unifyNewlines_append {s : Bytes} (hs : cr ∉ s) (t : Bytes) :
    unifyNewlines (s ++ t) = s ++ unifyNewlines t := by
  induction s with
  | nil => rfl
  | cons b s ih =>
      rw [List.mem_cons, not_or] at hs
      rw [List.cons_append, unifyNewlines_cons fun hpair => hs.1 hpair.1.symm, ih hs.2,
        List.cons_append]

theorem unifyNewlines_of_not_mem {s : Bytes} (hs : cr ∉ s) : unifyNewlines s = s := by
  simpa [unifyNewlines] using unifyNewlines_append hs []

theorem unifyNewlines_crlf (s : Bytes) : unifyNewlines (cr :: lf :: s) = lf :: unifyNewlines s :=
  unifyNewlines.eq_2 s

theorem hasCrlf_crlf (s : Bytes) : hasCrlf (cr :: lf :: s) = true := hasCrlf.eq_2 s

/-- Without a CR LF pair there is nothing to unify. -/
theorem unifyNewlines_of_hasCrlf {s : Bytes} (h : hasCrlf s = false) : unifyNewlines s = s := by
  induction s using unifyNewlines.induct with
  | case1 => rfl
  | case2 rest => exact Bool.noConfusion ((hasCrlf_crlf rest).symm.trans h)
  | case3 b rest hpair ih =>
      rw [hasCrlf.eq_3 b rest fun tail hb hrest => hpair tail hb hrest] at h
      rw [unifyNewlines.eq_3 b rest fun tail hb hrest => hpair tail hb hrest, ih h]

theorem isEmpty_withCrlf (s : Bytes) : (withCrlf s).isEmpty = s.isEmpty := by
  cases s with
  | nil => rfl
  | cons b s => by_cases hb : b = lf <;> simp [withCrlf, hb]

theorem head?_withCrlf (s : Bytes) : (withCrlf s).head? ≠ some lf := by
  cases s with
  | nil => simp [withCrlf]
  | cons b s =>
      by_cases hb : b = lf
      · simp [hb, withCrlf_lf, show cr ≠ lf by decide]
      · simpa [withCrlf_cons hb] using hb

/-- Reading undoes the replacement. -/
theorem unifyNewlines_withCrlf (s : Bytes) : unifyNewlines (withCrlf s) = s := by
  induction s with
  | nil => rfl
  | cons b s ih =>
      by_cases hb : b = lf
      · rw [hb, withCrlf_lf, unifyNewlines_crlf, ih]
      · rw [withCrlf_cons hb, unifyNewlines_cons fun hpair => head?_withCrlf s hpair.2, ih]

theorem hasCrlf_of_not_mem {s : Bytes} (hs : cr ∉ s) : hasCrlf s = false := by
  induction s with
  | nil => rfl
  | cons b s ih =>
      rw [List.mem_cons, not_or] at hs
      rw [hasCrlf.eq_3 b s fun rest hb => absurd hb.symm hs.1, ih hs.2]

theorem hasCrlf_withCrlf {s : Bytes} (hs : lf ∈ s) : hasCrlf (withCrlf s) = true := by
  induction s with
  | nil => exact absurd hs List.not_mem_nil
  | cons b s ih =>
      by_cases hb : b = lf
      · rw [hb, withCrlf_lf, hasCrlf_crlf]
      · have hrest : lf ∈ s := by
          cases List.mem_cons.mp hs with
          | inl h => exact absurd h.symm hb
          | inr h => exact h
        rw [withCrlf_cons hb, hasCrlf.eq_3 b _ fun rest _ hs => head?_withCrlf s (by rw [hs]; rfl)]
        exact ih hrest

/-- A mark without line ends stands before a text whichever line ends that has. -/
theorem dropPrefix?_withCrlf {mark : Bytes} (hlf : lf ∉ mark) (hcr : cr ∉ mark) (s : Bytes) :
    dropPrefix? mark (withCrlf s) = (dropPrefix? mark s).map withCrlf := by
  rw [dropPrefix?, dropPrefix?]
  by_cases h : mark <+: s
  · obtain ⟨body, rfl⟩ := h
    simp [withCrlf_of_not_mem hlf]
  · have hno : ¬mark <+: withCrlf s := by
      rintro ⟨body, hbody⟩
      refine h ⟨unifyNewlines body, ?_⟩
      rw [← unifyNewlines_append hcr, hbody, unifyNewlines_withCrlf]
    simp [h, hno]

/-- A content without the byte order mark at its front. -/
def body (content : Bytes) : Bytes := (dropPrefix? byteOrderMark content).getD content

theorem body_withCrlf (s : Bytes) : body (withCrlf s) = withCrlf (body s) := by
  rw [body, body, dropPrefix?_withCrlf (by decide) (by decide)]
  cases dropPrefix? byteOrderMark s <;> rfl

/-- The mark and the body make up the content. -/
theorem mem_body_iff {b : UInt8} (hb : b ∉ byteOrderMark) (s : Bytes) : b ∈ body s ↔ b ∈ s := by
  rw [body, dropPrefix?]
  by_cases h : byteOrderMark <+: s
  · obtain ⟨rest, rfl⟩ := h
    simp [hb]
  · simp [h]

end Source

open Source in
theorem FileTable.load_eq (t : FileTable) (path content : Bytes) (flags : FileFlags) :
    (t.load path content flags).1 = ⟨t.nextId, Path.clean path, unifyNewlines (body content),
      { flags with
        hadMark := flags.hadMark || (Bytes.dropPrefix? byteOrderMark content).isSome
        hadCrlf := flags.hadCrlf || hasCrlf (body content) }⟩ := by
  rw [load, body]
  cases Bytes.dropPrefix? byteOrderMark content <;> rfl

namespace Writer

open Bytes Source

/-! ## Writing -/

/-- Trimming looks only at blanks, and no line end is one. -/
theorem trimRight_withCrlf (s : Bytes) :
    trimRight isBlank (Source.withCrlf s) = Source.withCrlf (trimRight isBlank s) := by
  change (Source.withCrlf s).rdropWhile isBlank = Source.withCrlf (s.rdropWhile isBlank)
  induction s using List.reverseRecOn with
  | nil => rfl
  | append_singleton s b ih =>
      by_cases hlf : b = lf
      · have hend : Source.withCrlf (s ++ [lf]) = (Source.withCrlf s ++ [cr]) ++ [lf] := by
          simp [Source.withCrlf]
        rw [hlf, hend, List.rdropWhile_concat_neg _ _ _ (by decide), ← hend,
          List.rdropWhile_concat_neg _ _ _ (by decide)]
      · have hend : Source.withCrlf (s ++ [b]) = Source.withCrlf s ++ [b] := by
          simp [withCrlf_of_not_mem, Ne.symm hlf]
        by_cases hb : isBlank b = true
        · rw [hend, List.rdropWhile_concat_pos _ _ _ hb, List.rdropWhile_concat_pos _ _ _ hb, ih]
        · rw [hend, List.rdropWhile_concat_neg _ _ _ hb, List.rdropWhile_concat_neg _ _ _ hb, hend]

/-- The writer with every LF of its output replaced. -/
def withCrlf (w : Writer) : Writer := { w with out := (Source.withCrlf w.out.reverse).reverse }

variable {o : LayoutOptions}

theorem push_withCrlf (w : Writer) {s : Bytes} (hs : lf ∉ s) :
    w.withCrlf.push s = (w.push s).withCrlf := by
  simp [withCrlf, push, withCrlf_of_not_mem hs]

theorem startLine_withCrlf (w : Writer) (o : LayoutOptions) :
    w.withCrlf.startLine o = (w.startLine o).withCrlf := by
  have hblanks : lf ∉ (if o.tabs then List.replicate w.pending.toNat tab
      else List.replicate (w.pending * o.indentSize).toNat space) := by
    split
    · exact fun h => absurd (List.eq_of_mem_replicate h) (by decide)
    · exact fun h => absurd (List.eq_of_mem_replicate h) (by decide)
  by_cases hstart : w.atLineStart = true
  · simp only [startLine, withCrlf, hstart, Bool.not_true, Bool.false_eq_true, if_false]
    simp [push, withCrlf_of_not_mem hblanks]
  · simp [startLine, withCrlf, hstart]

theorem newline_withCrlf (w : Writer) (o : LayoutOptions) (indent : Int) :
    w.withCrlf.newline { o with newline := "\r\n" } indent =
      (w.newline { o with newline := "\n" } indent).withCrlf := by
  have htrim := trimRight_withCrlf w.out.reverse
  rw [trimRight, trimRight, List.reverse_reverse] at htrim
  simp only [newline, withCrlf, Writer.mk.injEq, and_self, and_true]
  rw [List.reverse_append, Source.withCrlf_append, ← htrim]
  simp
  rfl

theorem textLines_withCrlf (o : LayoutOptions) {lines : List Bytes}
    (hlines : ∀ line ∈ lines, lf ∉ line) (w : Writer) :
    textLines { o with newline := "\r\n" } w.withCrlf lines =
      (textLines { o with newline := "\n" } w lines).withCrlf := by
  induction lines generalizing w with
  | nil => rfl
  | cons line lines ih =>
      have hline := hlines line List.mem_cons_self
      rw [textLines, textLines, List.foldl_cons, List.foldl_cons, newline_withCrlf,
        push_withCrlf _ hline]
      exact ih (fun l hl => hlines l (List.mem_cons_of_mem _ hl))
        { (w.newline { o with newline := "\n" } 0).push line with
          col := Cells.width line, atLineStart := false }

/-- Laying out for CR LF is laying out for LF and replacing every LF. -/
theorem withCrlf_inStep (o : LayoutOptions) :
    InStep { o with newline := "\n" } { o with newline := "\r\n" } fun w w' => w' = w.withCrlf where
  width := rfl
  column := by
    rintro w _ rfl
    rfl
  newline := by
    rintro w _ indent rfl
    exact w.newline_withCrlf o indent
  text := by
    rintro w _ s rfl
    have hlines : ∀ line ∈ split lf s, lf ∉ line := not_mem_of_split s
    obtain ⟨first, rest, hsplit⟩ := List.exists_cons_of_ne_nil (split_ne_nil lf s)
    simp only [text, hsplit] at hlines ⊢
    rw [← textLines_withCrlf o fun line hline => hlines line (List.mem_cons_of_mem _ hline)]
    congr 1
    split
    · rfl
    · rw [startLine_withCrlf, push_withCrlf _ (hlines first List.mem_cons_self)]
      rfl
  spaces := by
    rintro w _ n rfl
    rw [spaces, spaces]
    split
    · rfl
    · have hspaces : lf ∉ List.replicate n.toNat space :=
        fun h => absurd (List.eq_of_mem_replicate h) (by decide)
      rw [startLine_withCrlf]
      dsimp only
      rw [push_withCrlf _ hspaces]
      rfl

theorem result_withCrlf (w : Writer) : w.withCrlf.result = Source.withCrlf w.result := by
  have htrim := trimRight_withCrlf w.out.reverse
  rwa [trimRight, trimRight, List.reverse_reverse] at htrim

end Writer

namespace Doc

variable (d : Doc) (o : LayoutOptions)

theorem render_withCrlf :
    d.render { o with newline := "\r\n" } =
      Source.withCrlf (d.render { o with newline := "\n" }) := by
  have hwrite := (Writer.withCrlf_inStep o.normalize).write 0 false 0 d (w := {}) rfl
  exact (congrArg Writer.result hwrite).trans (Writer.result_withCrlf _)

/-- A file written with CR LF is the file written with LF after every LF was replaced. -/
theorem page_withCrlf :
    d.page { o with newline := "\r\n" } = Source.withCrlf (d.page { o with newline := "\n" }) := by
  simp only [page, render_withCrlf, Source.isEmpty_withCrlf]
  split
  · rfl
  · rw [Source.withCrlf_append]
    rfl

end Doc

/-! ## Formatting -/

open Bytes in
/-- Formatting is transparent to line ends: a source is formatted with LF and with CR LF alike, and
only `auto` line ends tell the outputs apart. -/
theorem format_follows_line_ends (t : FileTable) (path source : Bytes) (inMemory : Bool)
    (hcr : cr ∉ source) (hlf : lf ∈ source) (s : Settings) (bag : Bag) :
    let plain := ((t.load path source { inMemory }).1.format s bag).1
    let marked := ((t.load path (Source.withCrlf source) { inMemory }).1.format s bag).1
    marked.isOk = plain.isOk ∧
      (s.eol = "auto" → marked = plain.map Source.withCrlf) ∧
      (s.eol = "lf" ∨ s.eol = "crlf" → marked = plain) := by
  have hbodycr : cr ∉ Source.body source := by rwa [Source.mem_body_iff (by decide)]
  have hbodylf : lf ∈ Source.body source := by rwa [Source.mem_body_iff (by decide)]
  -- Both files have the same content; they differ in the flag for CR LF.
  have hparsed : ((t.load path (Source.withCrlf source) { inMemory }).1.parsed bag).1 =
      ((t.load path source { inMemory }).1.parsed bag).1 := by
    rw [SourceFile.parsed_eq, SourceFile.parsed_eq, SourceFile.parse_congr]
    · rw [t.load_eq, t.load_eq]
    · rw [t.load_eq, t.load_eq, Source.body_withCrlf, Source.unifyNewlines_withCrlf,
        Source.unifyNewlines_of_not_mem hbodycr]
  have hplain : (t.load path source { inMemory }).1.flags.hadCrlf = false := by
    simp [t.load_eq, Source.hasCrlf_of_not_mem hbodycr]
  have hmarked : (t.load path (Source.withCrlf source) { inMemory }).1.flags.hadCrlf = true := by
    simp [t.load_eq, Source.body_withCrlf, Source.hasCrlf_withCrlf hbodylf]
  simp only [SourceFile.format_eq, hparsed, hplain, hmarked]
  cases ((t.load path source { inMemory }).1.parsed bag).1 with
  | error error => simp [Except.map, Except.isOk, Except.toBool]
  | ok design =>
      refine ⟨rfl, fun hauto => congrArg Except.ok ?_, fun hfixed => congrArg Except.ok ?_⟩
      · have hends : s.newline true = "\r\n" ∧ s.newline false = "\n" := by
          rw [Settings.newline, Settings.newline, hauto]
          decide
        rw [hends.1, hends.2]
        exact (design.document s).page_withCrlf (s.layout [])
      · have hends : s.newline true = s.newline false := by
          rw [Settings.newline, Settings.newline]
          rcases hfixed with heol | heol <;> (rw [heol]; decide)
        rw [hends]

open Bytes in
/-- A block comment over two lines, in a file that is indented with tabs. -/
theorem format_follows_line_ends_comment :
    let source : Bytes := "/* two \n lines */\nentity e is port (a : in bit); end;\n"
    let s : Settings := { indentStyle := "tabs" }
    let plain := ((FileTable.load {} "e.vhd" source { inMemory := true }).1.format s
      (Bag.ofLimit 100)).1
    let marked := ((FileTable.load {} "e.vhd" (Source.withCrlf source)
      { inMemory := true }).1.format s (Bag.ofLimit 100)).1
    cr ∉ source ∧ lf ∈ source ∧ marked.isOk = plain.isOk ∧
      (s.eol = "auto" → marked = plain.map Source.withCrlf) ∧
      (s.eol = "lf" ∨ s.eol = "crlf" → marked = plain) :=
  ⟨by decide, by decide, format_follows_line_ends _ _ _ true (by decide) (by decide) _ _⟩

end VhdlStyle
