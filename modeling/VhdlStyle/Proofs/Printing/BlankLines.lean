import VhdlStyle.Proofs.Layout.Stacked
import VhdlStyle.Proofs.Parsing.CompleteFiles
import VhdlStyle.Proofs.Printing.SolidUnits

/-! # Blank lines of formatted files

A source without errors is read as a tree without gaps, so its document is solid: the text does not
start with a blank line, has never two of them together, and ends with one line end. The units of a
file stand one below the other with one blank line between. -/

namespace VhdlStyle

open Bytes (gaps inked)
open Comment (AllInked)

/-! ## Texts of solid documents -/

theorem Doc.Solid.gaps_render {d : Doc} (h : d.Solid) {o : LayoutOptions}
    (ho : IsNewline o.newline) : gaps 2 (d.render o) = some 0 := by
  obtain ⟨ps, hlaid, hrender⟩ := d.render_laid ho
  obtain ⟨n, hn, hgaps⟩ := h _ rfl o.newline ho ps hlaid 2 (Nat.le_refl 2)
  rw [hrender, hgaps, Nat.le_zero.mp hn]

theorem Bytes.ne_nil_of_gaps {text : Bytes} (h : gaps 2 text = some 0) : text ≠ [] := by
  rintro rfl
  simp at h

theorem Doc.page_of_ne_nil {d : Doc} {o : LayoutOptions} (h : d.render o ≠ []) :
    d.page o = d.render o ++ o.newline := by
  rw [page]
  exact if_neg (by simpa using h)

theorem Doc.Solid.wellSpaced_page {d : Doc} (h : d.Solid) {o : LayoutOptions}
    (ho : IsNewline o.newline) : Bytes.WellSpaced o.newline (d.page o) := by
  have hgaps := h.gaps_render ho
  rw [page_of_ne_nil (Bytes.ne_nil_of_gaps hgaps)]
  exact Bytes.wellSpaced_of_gaps ho hgaps

/-! ## Comments on one line -/

/-- A comment that stays on its line shows its mark. -/
theorem Bytes.inked_of_isComment {c : Bytes} (h : c.isComment = true) (hlf : lf ∉ c) :
    inked false c = true := by
  match c with
  | [] => simp [isComment] at h
  | [_] => simp [isComment] at h
  | a :: b :: rest =>
      have ha : a = ('-' : UInt8) ∨ a = ('/' : UInt8) := by
        simp only [isComment, Bool.or_eq_true, Bool.and_eq_true, beq_iff_eq] at h
        exact h.imp And.left And.left
      have hink : isInk a = true := by rcases ha with rfl | rfl <;> decide
      exact inked_of_isInk hink fun hmem => hlf (List.mem_cons_of_mem a hmem)

theorem SourceFile.allInked_tokens {f : SourceFile} (hblocks : ∀ t ∈ f.tokens.1,
    ∀ tr ∈ t.leading, tr.kind = .blockComment → Bytes.lf ∉ tr.text) :
    AllInked (Token.comments f.tokens.1) := by
  have hscanned : ∀ t ∈ f.tokens.1, ∀ tr ∈ t.leading, tr.Scanned :=
    f.forall_tokens Lexer.scanToken_scanned
  intro c hc
  have hcomment := (f.commentText_of_mem c hc).isComment
  rw [Token.comments, Trivia.comments, Multiset.mem_coe] at hc
  obtain ⟨tr, htr, rfl⟩ := List.mem_map.mp hc
  obtain ⟨hmem, hkind⟩ := List.mem_filter.mp htr
  obtain ⟨t, ht, hleading⟩ := List.mem_flatMap.mp hmem
  have hlf : Bytes.lf ∉ tr.text := by
    by_cases hblock : tr.kind = .blockComment
    · exact hblocks t ht tr hleading hblock
    · exact (hscanned t ht tr hleading).lf_not_mem hkind hblock
  exact Bytes.inked_of_isComment hcomment fun hmem => hlf (Bytes.mem_of_mem_trimRight hmem)

/-! ## Units one below the other -/

namespace Block

variable {α : Type} (doc : α → Doc)

/-- Each element goes below a blank line. -/
theorem lines_foldl (xs : List α) {b : Block} {d : Doc} {lines : List (Option Doc)}
    (hb : b.lines = some d :: lines) :
    (xs.foldl (fun b x => b.blank.add (doc x)) b).lines =
        (xs.flatMap fun x => [none, some (doc x)]).reverse ++ b.lines ∧
      ∃ e above, (xs.foldl (fun b x => b.blank.add (doc x)) b).lines = some e :: above := by
  induction xs generalizing b d lines with
  | nil => exact ⟨rfl, d, lines, hb⟩
  | cons x rest ih =>
      have hstep : (b.blank.add (doc x)).lines = some (doc x) :: none :: b.lines := by
        rw [add, blank, hb]
      obtain ⟨hlines, hlast⟩ := ih hstep
      rw [List.foldl_cons]
      refine ⟨?_, hlast⟩
      rw [hlines, hstep, List.flatMap_cons, List.reverse_append]
      simp

theorem exists_lines_blank (b : Block) : ∃ below, b.blank.lines = below ++ b.lines := by
  rw [blank]
  split
  · exact ⟨[], rfl⟩
  · exact ⟨[], rfl⟩
  · exact ⟨[none], rfl⟩

/-- Comments go below what stands in the block. -/
theorem exists_lines_comments (b : Block) (cs : List Comment) :
    ∃ below, (b.comments cs).lines = below ++ b.lines := by
  induction cs generalizing b with
  | nil => exact ⟨[], rfl⟩
  | cons c rest ih =>
      have hstep : ∃ more, ((if c.blankBefore then b.blank else b).add (.text c.text)).lines =
          more ++ b.lines := by
        split
        · obtain ⟨more, hmore⟩ := b.exists_lines_blank
          exact ⟨some (.text c.text) :: more, by rw [add, hmore, List.cons_append]⟩
        · exact ⟨[some (.text c.text)], rfl⟩
      obtain ⟨more, hmore⟩ := hstep
      obtain ⟨below, hbelow⟩ := ih ((if c.blankBefore then b.blank else b).add (.text c.text))
      refine ⟨below ++ more, ?_⟩
      rw [List.append_assoc, ← hmore]
      exact hbelow

/-- A block with a line in it keeps what stands above the line. -/
theorem dropWhile_lines (below above : List (Option Doc)) (d : Doc) :
    ∃ kept, (below ++ some d :: above).dropWhile Option.isNone = kept ++ some d :: above := by
  refine ⟨below.dropWhile Option.isNone, ?_⟩
  rw [List.dropWhile_append]
  split
  · rename_i hnone
    rw [List.isEmpty_iff.mp hnone]
    rfl
  · rfl

end Block

namespace Printer

variable (p : Printer) {o : LayoutOptions}

/-- The lines of a file: its units with blank lines between, and what stands below them. -/
theorem exists_lines_fileBlock (u : DesignUnit) (rest : List DesignUnit)
    (trailing : List Comment) :
    ∃ below, ((p.fileBlock ⟨u :: rest, trailing⟩).lines.dropWhile Option.isNone).reverse =
      some (p.designUnit u) :: (rest.flatMap fun v => [none, some (p.designUnit v)]) ++ below := by
  have hfirst : (Block.add {} (p.designUnit u)).lines = [some (p.designUnit u)] := rfl
  obtain ⟨hunits, d, above, hlast⟩ := Block.lines_foldl p.designUnit rest hfirst
  obtain ⟨comments, hcomments⟩ := Block.exists_lines_comments
    (rest.foldl (fun b u => b.blank.add (p.designUnit u)) (Block.add {} (p.designUnit u))) trailing
  obtain ⟨kept, hkept⟩ := Block.dropWhile_lines comments above d
  refine ⟨kept.reverse, ?_⟩
  have hlines : (p.fileBlock ⟨u :: rest, trailing⟩).lines = comments ++ some d :: above := by
    rw [← hlast]
    exact hcomments
  rw [hlines, hkept, ← hlast, hunits, hfirst]
  simp

theorem render_designFile (ho : IsNewline o.newline) {f : DesignFile} (hne : f.units ≠ []) :
    ∃ below : List Bytes, (p.designFile f).render o =
      (o.newline ++ o.newline).intercalate (f.units.map fun u => (p.designUnit u).render o) ++
        below.flatMap (o.newline ++ ·) := by
  obtain ⟨units, trailing⟩ := f
  obtain ⟨u, rest, rfl⟩ := List.exists_cons_of_ne_nil hne
  obtain ⟨below, hlines⟩ := p.exists_lines_fileBlock u rest trailing
  have hempty : Doc.empty.render o = [] := rfl
  refine ⟨below.map fun line => (line.getD .empty).render o, ?_⟩
  have hdoc : p.designFile ⟨u :: rest, trailing⟩ = .concat ((((p.fileBlock ⟨u :: rest,
      trailing⟩).lines.dropWhile Option.isNone).reverse.map fun line =>
        line.getD .empty).intersperse .hardLine) := rfl
  rw [hdoc, Doc.render_lines ho, hlines]
  simp only [List.cons_append, List.map_cons, List.map_append, intercalate_cons_eq,
    List.flatMap_append, List.append_assoc]
  simp [List.flatMap_map, List.map_flatMap, List.flatMap_assoc, hempty]

end Printer

namespace DesignFile

variable {f : DesignFile} {newline : Bytes}

/-- A file without a line in it is empty. -/
theorem wellSpaced_render (h : f.InCode) (hfull : f.Complete) (hcs : AllInked f.comments)
    (s : Settings) (hnewline : IsNewline newline) :
    f.render s newline = [] ∨ Bytes.WellSpaced newline (f.render s newline) := by
  by_cases hlines : ((f.printer s).fileBlock f).lines = []
  · have hdoc : f.document s = .concat (((((f.printer s).fileBlock f).lines.dropWhile
        Option.isNone).reverse.map fun line => line.getD .empty).intersperse .hardLine) := rfl
    rw [render, hdoc, hlines]
    exact .inl rfl
  · exact .inr ((((f.printer s).solid_fileBlock h hfull hcs).doc hlines).wellSpaced_page
      (o := s.layout newline) hnewline)

/-- A unit shows something, so the line end behind the last one is there. -/
theorem exists_render_units (s : Settings) (hnewline : IsNewline newline)
    (hunits : ∀ u ∈ f.units, ((f.printer s).designUnit u).render (s.layout newline) ≠ []) :
    ∃ rest, f.render s newline = (newline ++ newline).intercalate
        (f.units.map fun u => ((f.printer s).designUnit u).render (s.layout newline)) ++ rest ∧
      (f.units ≠ [] → newline <+: rest) := by
  by_cases hnone : f.units = []
  · exact ⟨f.render s newline, by simp [hnone], fun hne => absurd hnone hne⟩
  · obtain ⟨below, hbelow⟩ :=
      (f.printer s).render_designFile (o := s.layout newline) hnewline hnone
    have hshown : (f.document s).render (s.layout newline) ≠ [] := by
      obtain ⟨u, rest, hlist⟩ := List.exists_cons_of_ne_nil hnone
      rw [document, hbelow, hlist, List.map_cons, intercalate_cons_eq]
      simp [hunits u (by simp [hlist])]
    refine ⟨below.flatMap (newline ++ ·) ++ newline, ?_, fun _ => ?_⟩
    · rw [render, Doc.page_of_ne_nil hshown, document, hbelow, List.append_assoc]
      rfl
    · cases below with
      | nil => exact List.prefix_rfl
      | cons line lines =>
          rw [List.flatMap_cons, List.append_assoc, List.append_assoc]
          exact List.prefix_append _ _

end DesignFile

/-! ## Formatted files -/

/-- Whatever the settings are, what is read without errors and has no block comment that goes on
over the end of a line is formatted with its blank lines in order: the text is empty or does not
start with a line end, ends with one, and has no two blank lines together. The units stand as each
of them is written on its own, with one blank line between. -/
theorem blank_lines_are_canonical (f : SourceFile) (all : List Diagnostic) (hall : f.Finds all)
    (hclean : ∀ d ∈ all, d.isError = false)
    (hblocks : ∀ t ∈ f.tokens.1, ∀ tr ∈ t.leading, tr.kind = .blockComment → Bytes.lf ∉ tr.text)
    (s : Settings) (bag : Bag) (hbag : bag.items = []) :
    let newline := s.newline f.flags.hadCrlf
    let design := (f.parse bag).1
    let text (u : DesignUnit) := ((design.printer s).designUnit u).render (s.layout newline)
    ∃ out, (f.format s bag).1 = .ok out ∧ (out = [] ∨ Bytes.WellSpaced newline out) ∧
      (∀ u ∈ design.units, text u ≠ [] ∧ ¬ newline <+: text u ∧ ¬ newline <:+ text u) ∧
      ∃ rest, out = (newline ++ newline).intercalate (design.units.map text) ++ rest ∧
        (design.units ≠ [] → newline <+: rest) := by
  intro newline design text
  have hnewline : IsNewline newline := s.isNewline_newline _
  have hwords : design.InCode := SourceFile.inCode_parse (hall.tokens_clean hclean) hbag
  have hfull : design.Complete := hall.parse_gives hclean DesignFile.gives_parseTokens hbag
  have hcomments : AllInked design.comments := fun c hc =>
    SourceFile.allInked_tokens hblocks c (Multiset.mem_of_le (f.comments_parse_le hbag) hc)
  have hunits : ∀ u ∈ design.units, gaps 2 (text u) = some 0 := by
    simp only [DesignFile.comments, Comment.allInked_add, Comment.allInked_all] at hcomments
    intro u hu
    exact ((design.printer s).solid_designUnit (hwords u hu) (hfull u hu)
      (hcomments.1 u hu)).gaps_render hnewline
  have hformat := SourceFile.format_of_clean ⟨all, hall, hclean⟩ s bag hbag
  rw [← ((SourceFile.parse_of_clean ⟨all, hall, hclean⟩).2 bag hbag).1] at hformat
  exact ⟨_, hformat, design.wellSpaced_render hwords hfull hcomments s hnewline,
    fun u hu => ⟨Bytes.ne_nil_of_gaps (hunits u hu), Bytes.newline_not_first hnewline (hunits u hu),
      Bytes.newline_not_last hnewline (hunits u hu)⟩,
    design.exists_render_units s hnewline fun u hu => Bytes.ne_nil_of_gaps (hunits u hu)⟩

/-- Two units with too many blank lines around them, and comments above and below. -/
theorem blank_lines_are_canonical_of_two_units :
    let f := SourceFile.ofBytes "a.vhd"
      "\n\nentity a is end;\n\n\n--b\n\n\nlibrary c;entity b is end;\n\n\n--d\n\n"
    ∃ out rest : Bytes, (f.format {} (Bag.ofLimit 9)).1 = .ok out ∧
      (out = [] ∨ Bytes.WellSpaced "\n" out) ∧
      out = ("\n\n" : Bytes).intercalate
        ["entity a is\nend entity a;", "--b\n\nlibrary c;\nentity b is\nend entity b;"] ++
          rest := by
  intro f
  have hfinds : f.Finds [] := ⟨Bag.ofLimit 9, rfl, by decide +kernel, by decide +kernel⟩
  obtain ⟨out, hformat, hspaced, -, rest, hout, -⟩ := blank_lines_are_canonical f [] hfinds
    (by simp) (by decide +kernel) {} (Bag.ofLimit 9) rfl
  have hnewline : ({} : Settings).newline f.flags.hadCrlf = "\n" := by decide +kernel
  refine ⟨out, rest, hformat, hnewline ▸ hspaced, hout.trans (congrArg (· ++ rest) ?_)⟩
  decide +kernel

end VhdlStyle
