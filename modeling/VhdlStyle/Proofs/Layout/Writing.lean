import Mathlib.Data.List.DropRight
import VhdlStyle.Proofs.Layout.Pieces
import VhdlStyle.Settings.Basic

/-! # Writing a document

The writer keeps to the rules of layout in every state, for every width and indentation: what it
adds to its output are the pieces of a layout, and blanks that still wait for a text. -/

namespace VhdlStyle

/-! ## The state of the writer -/

/-- The line ends that an output may have. -/
def IsNewline (newline : Bytes) : Prop := newline = "\n" ∨ newline = "\r\n"

instance (newline : Bytes) : Decidable (IsNewline newline) :=
  inferInstanceAs (Decidable (_ ∨ _))

theorem Settings.isNewline_newline (s : Settings) (crlf : Bool) : IsNewline (s.newline crlf) := by
  rw [Settings.newline]
  split
  · exact .inr rfl
  · exact .inl rfl

theorem IsNewline.lf_mem {newline : Bytes} (h : IsNewline newline) : Bytes.lf ∈ newline := by
  rcases h with rfl | rfl <;> decide

theorem LayoutOptions.newline_normalize {o : LayoutOptions} (h : IsNewline o.newline) :
    o.normalize.newline = o.newline :=
  if_neg (by simpa using List.ne_nil_of_mem h.lf_mem)

namespace Writer

/-- The bytes do not end in a blank. -/
def Trimmed (s : Bytes) : Prop := Bytes.trimRight isBlank s = s

theorem trimmed_append {s t : Bytes} (ht : Trimmed t) (hne : t ≠ []) : Trimmed (s ++ t) := by
  have hlast := List.rdropWhile_eq_self_iff.mp ht hne
  refine List.rdropWhile_eq_self_iff.mpr fun h => ?_
  rwa [List.getLast_append_of_ne_nil _ hne]

theorem trimmed_trimRight (s : Bytes) : Trimmed (Bytes.trimRight isBlank s) :=
  List.rdropWhile_idempotent _ _

theorem trimmed_newline {newline : Bytes} (h : IsNewline newline) : Trimmed newline := by
  rcases h with rfl | rfl <;> rfl

theorem newline_ne_nil {newline : Bytes} (h : IsNewline newline) : newline ≠ [] := by
  rcases h with rfl | rfl <;> decide

/-- A text is what trimming leaves and the blanks at its end. -/
theorem trimRight_append (s : Bytes) : Bytes.trimRight isBlank s ++ s.rtakeWhile isBlank = s :=
  List.rdropWhile_append_rtakeWhile

/-- The writer holds the bytes and, after them, blanks that the end of the line would remove. -/
structure Wrote (w : Writer) (out blanks : Bytes) : Prop where
  blank : ∀ c ∈ blanks, isBlank c = true
  trimmed : Trimmed out
  out_eq : w.out = (out ++ blanks).reverse

namespace Wrote

variable {o : LayoutOptions} {w v : Writer} {out blanks : Bytes}

/-- Blanks at the end are all that trimming removes. -/
theorem dropWhile_out (h : Wrote w out blanks) : w.out.dropWhile isBlank = out.reverse := by
  have htrimmed : out.reverse.dropWhile isBlank = out.reverse :=
    List.reverse_inj.mp (h.trimmed.trans (List.reverse_reverse _).symm)
  rw [h.out_eq, List.reverse_append, List.dropWhile_append_of_pos]
  · exact htrimmed
  · intro c hc
    exact h.blank c (List.mem_reverse.mp hc)

/-- Ending the line drops the blanks before it. -/
theorem newline (ho : IsNewline o.newline) (h : Wrote w out blanks) (indent : Int) :
    Wrote (w.newline o indent) (out ++ o.newline) [] := by
  refine ⟨by simp, trimmed_append (trimmed_newline ho) (newline_ne_nil ho), ?_⟩
  simp [Writer.newline, h.dropWhile_out]

/-- Further blanks wait with those before them. -/
theorem more (h : Wrote w out blanks) {s : Bytes} (hs : ∀ c ∈ s, isBlank c = true)
    (hv : v.out = s.reverse ++ w.out) : Wrote v out (blanks ++ s) := by
  refine ⟨?_, h.trimmed, ?_⟩
  · intro c hc
    rcases List.mem_append.mp hc with hc | hc
    · exact h.blank c hc
    · exact hs c hc
  · simp [hv, h.out_eq]

/-- A text that shows something settles the blanks before it. -/
theorem shown (h : Wrote w out blanks) {s : Bytes} (hs : ∃ c ∈ s, isBlank c = false)
    (hv : v.out = s.reverse ++ w.out) :
    Wrote v (out ++ blanks ++ Bytes.trimRight isBlank s) (s.rtakeWhile isBlank) := by
  refine ⟨fun c hc => List.mem_rtakeWhile_imp hc, ?_, ?_⟩
  · refine trimmed_append (trimmed_trimRight s) fun hnil => ?_
    obtain ⟨c, hc, hcb⟩ := hs
    have hall := List.rdropWhile_eq_nil_iff.mp hnil c hc
    rw [hcb] at hall
    exact Bool.false_ne_true hall
  · rw [hv, h.out_eq, List.append_assoc, trimRight_append]
    simp

/-- A line right after the end of another. -/
theorem line (h : Wrote w out []) (s : Bytes) (hv : v.out = s.reverse ++ w.out) :
    Wrote v (out ++ Bytes.trimRight isBlank s) (s.rtakeWhile isBlank) := by
  by_cases hs : ∃ c ∈ s, isBlank c = false
  · simpa using h.shown hs hv
  · have hall : ∀ c ∈ s, isBlank c = true := by simpa using hs
    have htrim : Bytes.trimRight isBlank s = [] := List.rdropWhile_eq_nil_iff.mpr hall
    have hrest := trimRight_append s
    rw [htrim, List.nil_append] at hrest
    rw [htrim, hrest, List.append_nil]
    exact h.more hall hv

/-- The indentation of a line is blank. -/
theorem startLine (h : Wrote w out blanks) (o : LayoutOptions) :
    ∃ indentation, Wrote (w.startLine o) out (blanks ++ indentation) := by
  rw [Writer.startLine]
  split
  · exact ⟨[], by simpa using h⟩
  · refine ⟨_, h.more ?_ rfl⟩
    intro c hc
    split at hc
    · rw [(List.mem_replicate.mp hc).2]; rfl
    · rw [(List.mem_replicate.mp hc).2]; rfl

theorem textLines (ho : IsNewline o.newline) (h : Wrote w out blanks) (lines : List Bytes) :
    ∃ blanks', Wrote (Writer.textLines o w lines)
      (out ++ lines.flatMap (o.newline ++ Bytes.trimRight isBlank ·)) blanks' := by
  induction lines generalizing w out blanks with
  | nil => exact ⟨blanks, by simpa [Writer.textLines] using h⟩
  | cons line lines ih =>
      have hline := (h.newline ho 0).line line
        (v := { ((w.newline o 0).push line) with
          col := Cells.width line, atLineStart := false }) rfl
      obtain ⟨blanks', hrest⟩ := ih hline
      refine ⟨blanks', ?_⟩
      rw [List.flatMap_cons, ← List.append_assoc, ← List.append_assoc]
      exact hrest

/-- A text becomes a piece. The blanks before it become pieces if its first line shows
something; else they wait, or the end of its first line drops them. -/
theorem text (ho : IsNewline o.newline) {ps : List Piece}
    (h : Wrote w (Piece.output o.newline ps) blanks) (flat : Bool) (s : Bytes) :
    ∃ new blanks', Wrote (w.text o s) (Piece.output o.newline (ps ++ new)) blanks' ∧
      Lays [(flat, .text s)] new := by
  obtain ⟨first, rest, hsplit⟩ := List.exists_cons_of_ne_nil (Bytes.split_ne_nil Bytes.lf s)
  have hs := Bytes.eq_of_split hsplit
  have hwritten : Piece.written o.newline s = _ := Piece.written_eq hsplit
  simp only [Writer.text, hsplit]
  by_cases hfirst : ∃ c ∈ first, isBlank c = false
  · obtain ⟨indentation, hstart⟩ := h.startLine o
    have hne : first.isEmpty = false := by
      obtain ⟨c, hc, -⟩ := hfirst
      exact List.isEmpty_eq_false_iff.mpr (List.ne_nil_of_mem hc)
    rw [hne]
    have hline := hstart.shown hfirst
      (v := { (w.startLine o).push first with
        col := (w.startLine o).col + Cells.width first }) rfl
    obtain ⟨blanks', hlines⟩ := hline.textLines ho rest
    refine ⟨Piece.ofBlanks (blanks ++ indentation) ++ [.text s], blanks', ?_, ?_⟩
    · simpa [Piece.bytes, hwritten, Piece.output_ofBlanks _ hstart.blank] using hlines
    · intro rest' qs hrest
      obtain ⟨c, hc, hshown⟩ := hfirst
      have hmem : c ∈ s := hs ▸ List.mem_append_left _ hc
      rw [List.append_assoc]
      exact .text (blanks ++ indentation) ⟨c, hmem, hshown⟩ hrest
  · have hblank : ∀ c ∈ first, isBlank c = true := by simpa using hfirst
    have htrim : Bytes.trimRight isBlank first = [] := List.rdropWhile_eq_nil_iff.mpr hblank
    have hwait : ∃ waiting, Wrote (if first.isEmpty then w else
        { (w.startLine o).push first with col := (w.startLine o).col + Cells.width first })
        (Piece.output o.newline ps) waiting := by
      split
      · exact ⟨blanks, h⟩
      · obtain ⟨indentation, hstart⟩ := h.startLine o
        exact ⟨_, hstart.more hblank rfl⟩
    obtain ⟨waiting, hwait⟩ := hwait
    obtain ⟨blanks', hlines⟩ := hwait.textLines ho rest
    refine ⟨[.text s], blanks', by simpa [Piece.bytes, hwritten, htrim] using hlines, ?_⟩
    intro rest' qs hrest
    cases rest with
    | nil =>
        have hall : ∀ c ∈ s, isBlank c = true := by simpa [hs] using hblank
        exact .blank hall hrest
    | cons line lines =>
        have hmem : Bytes.lf ∈ s := by simp [hs]
        exact .text [] ⟨_, hmem, rfl⟩ hrest

/-- Spaces wait for the next text. -/
theorem spaces (h : Wrote w out blanks) (n : Int) :
    ∃ blanks', Wrote (w.spaces o n) out blanks' := by
  rw [Writer.spaces]
  split
  · exact ⟨blanks, h⟩
  · obtain ⟨indentation, hstart⟩ := h.startLine o
    refine ⟨_, hstart.more ?_ rfl⟩
    intro c hc
    rw [(List.mem_replicate.mp hc).2]; rfl

/-- The space between two cells waits for the next text. -/
theorem space (h : Wrote w out blanks) :
    ∃ blanks', Wrote (w.text o [Bytes.space]) out blanks' := by
  obtain ⟨indentation, hstart⟩ := h.startLine o
  have hblank : ∀ c ∈ [Bytes.space], isBlank c = true := by
    intro c hc
    rw [List.mem_singleton.mp hc]
    rfl
  exact ⟨_, hstart.more hblank rfl⟩

/-- The result of a writer is what it has written for good. -/
theorem result (h : Wrote w out blanks) : w.result = out := by
  rw [Writer.result, h.dropWhile_out, List.reverse_reverse]

end Wrote

/-- The step writes the documents: to the pieces before, it adds pieces that are a layout of
them. -/
def Writes (o : LayoutOptions) (items : List (Bool × Doc)) (step : Writer → Writer) : Prop :=
  ∀ w ps blanks, Wrote w (Piece.output o.newline ps) blanks →
    ∃ new blanks', Wrote (step w) (Piece.output o.newline (ps ++ new)) blanks' ∧ Lays items new

namespace Writes

variable {o : LayoutOptions} {xs ys : List (Bool × Doc)} {f g : Writer → Writer}

theorem id : Writes o [] fun w => w := by
  intro w ps blanks h
  exact ⟨[], blanks, by simpa using h, .nil⟩

theorem comp (hf : Writes o xs f) (hg : Writes o ys g) : Writes o (xs ++ ys) fun w => g (f w) := by
  intro w ps blanks h
  obtain ⟨new, blanks₁, hfirst, hxs⟩ := hf w ps blanks h
  obtain ⟨more, blanks₂, hsecond, hys⟩ := hg _ _ _ hfirst
  exact ⟨new ++ more, blanks₂, by simpa using hsecond, hxs.append hys⟩

/-- A step that only moves blanks may stand before any other. -/
theorem after_blanks {pad : Writer → Writer}
    (hpad : ∀ w out blanks, Wrote w out blanks → ∃ blanks', Wrote (pad w) out blanks')
    (hf : Writes o xs f) : Writes o xs fun w => f (pad w) := by
  intro w ps blanks h
  obtain ⟨blanks₁, hpadded⟩ := hpad w _ _ h
  exact hf _ _ _ hpadded

/-- Documents that show nothing need not be written. -/
theorem skip {texts : List Bytes} (hlays : Lays xs (texts.map .text)) (hnil : ∀ s ∈ texts, s = []) :
    Writes o xs fun w => w := by
  intro w ps blanks h
  have hout : Piece.output o.newline (texts.map .text) = [] := by
    rw [Piece.output, List.flatMap_map, List.flatMap_eq_nil_iff]
    intro s hs
    rw [hnil s hs]
    rfl
  exact ⟨texts.map .text, blanks, by simpa [hout] using h, hlays⟩

/-- The documents may be replaced by others of which every layout is a layout of them. -/
theorem of_laid (hf : Writes o xs f) (h : ∀ rest ps, Laid (xs ++ rest) ps → Laid (ys ++ rest) ps) :
    Writes o ys f := by
  intro w ps blanks hw
  obtain ⟨new, blanks', hnew, hlays⟩ := hf w ps blanks hw
  exact ⟨new, blanks', hnew, fun rest qs hrest => h rest _ (hlays rest qs hrest)⟩

/-- The space between two cells, where there is one. -/
theorem after_space (hf : Writes o xs f) (between : Bool) :
    Writes o xs fun w => f (if between then w.text o [Bytes.space] else w) := by
  cases between with
  | true => exact hf.after_blanks fun w out blanks h => h.space
  | false => exact hf

/-- The padding after a cell. -/
theorem after_spaces (hf : Writes o xs f) (n : Int) : Writes o xs fun w => f (w.spaces o n) :=
  hf.after_blanks fun _ _ _ h => h.spaces n

theorem of_eq (hf : Writes o xs f) (h : ∀ w, g w = f w) : Writes o xs g := by
  intro w ps blanks hw
  rw [h w]
  exact hf w ps blanks hw

/-- Ending the line writes a hard line. -/
theorem newline (ho : IsNewline o.newline) (flat : Bool) (indent : Int) :
    Writes o [(flat, .hardLine)] fun w => w.newline o indent := by
  intro w ps blanks h
  exact ⟨[.newline], [], by simpa [Piece.bytes] using h.newline ho indent,
    fun _ _ hrest => .hardLine hrest⟩

end Writes

end Writer

namespace Doc

open Writer

variable {o : LayoutOptions}

mutual

/-- A document is written as one of its layouts. -/
theorem writes (ho : IsNewline o.newline) (indent : Int) (flat : Bool) (trail : Nat) (d : Doc) :
    Writes o [(flat, d)] (write o indent flat trail d) := by
  cases d with
  | text s =>
      intro w ps blanks h
      exact h.text ho flat s
  | line =>
      cases flat with
      | true =>
          refine (Writes.after_blanks (fun w out blanks h => h.space) .id).of_laid ?_
          intro rest ps hrest
          exact .lineFlat hrest
      | false => exact (Writes.newline ho false indent).of_laid fun
        | _, _, .hardLine hrest => .lineBroken hrest
  | softLine =>
      cases flat with
      | true => exact Writes.id.of_laid fun _ _ hrest => .softLineFlat hrest
      | false => exact (Writes.newline ho false indent).of_laid fun
        | _, _, .hardLine hrest => .softLineBroken hrest
  | hardLine => exact Writes.newline ho flat indent
  | breakParent => exact Writes.id.of_laid fun _ _ hrest => .breakParent hrest
  | indent levels body =>
      exact (writes ho (indent + levels) flat trail body).of_laid fun _ _ hrest => .indent hrest
  | group body =>
      intro w ps blanks h
      refine (writes ho indent _ trail body).of_laid (fun _ _ hrest => .group ?_ hrest) w ps blanks h
      intro hfits
      simp only [Bool.or_eq_true, Bool.and_eq_true, Bool.not_eq_true'] at hfits
      exact hfits.imp_right And.left
  | concat parts => exact (writesAll ho indent flat trail parts).of_laid fun _ _ hrest => .concat hrest
  | table rows widths sep =>
      cases rows with
      | nil => exact Writes.id.of_laid fun _ _ hrest => .table hrest
      | cons row rest =>
          have hsep := writes ho indent flat 0 sep
          refine ((writesRow ho indent flat widths row).comp
            (writesRows ho indent flat widths hsep rest)).of_laid ?_
          intro rest' ps hrest
          refine .table ?_
          rw [List.map_cons, intercalate_cons_eq, List.flatMap_map]
          exact hrest

/-- Documents are written one after the other. -/
theorem writesAll (ho : IsNewline o.newline) (indent : Int) (flat : Bool) (trail : Nat)
    (ds : List Doc) : Writes o (ds.map (flat, ·)) (writeAll o indent flat trail ds) := by
  cases ds with
  | nil => exact .id
  | cons d rest =>
      exact (writes ho indent flat _ d).comp (writesAll ho indent flat trail rest)

/-- The rows of a table are written in order with the separator between them. -/
theorem writesRows (ho : IsNewline o.newline) (indent : Int) (flat : Bool) (widths : List Int)
    {sep : Doc} {writeSep : Writer → Writer} (hsep : Writes o [(flat, sep)] writeSep)
    (rows : List TableRow) :
    Writes o (rows.flatMap fun row => [(flat, sep)] ++ row.items flat)
      (writeRows o indent flat widths writeSep false rows) := by
  cases rows with
  | nil => exact .id
  | cons row rest =>
      exact ((hsep.comp (writesRow ho indent flat widths row)).comp
        (writesRows ho indent flat widths hsep rest))

/-- A row is written as the lines above it, its cells and its tail. -/
theorem writesRow (ho : IsNewline o.newline) (indent : Int) (flat : Bool) (widths : List Int)
    (row : TableRow) : Writes o (row.items flat) (writeRow o indent flat widths row) := by
  cases row with
  | mk leading cells tail =>
      have hcells : Writes o (TableRow.cellItems flat cells) fun w =>
          if flat then writeFlatCells o indent true cells w
          else writePaddedCells o indent (lead tail).1 widths false cells w := by
        cases flat with
        | true => exact writesFlatCells ho indent true cells
        | false => exact writesPaddedCells ho indent _ widths false cells
      exact ((writesLeading ho indent flat leading).comp hcells).comp (writes ho indent flat 0 tail)

/-- The documents above a row are written on lines of their own. -/
theorem writesLeading (ho : IsNewline o.newline) (indent : Int) (flat : Bool) (ds : List Doc) :
    Writes o (ds.flatMap fun d => [(flat, d), (flat, Doc.hardLine)])
      (writeLeading o indent flat ds) := by
  cases ds with
  | nil => exact .id
  | cons d rest =>
      exact ((writes ho indent flat 0 d).comp (Writes.newline ho flat indent)).comp
        (writesLeading ho indent flat rest)

/-- The cells of a row on one line are written in order. -/
theorem writesFlatCells (ho : IsNewline o.newline) (indent : Int) (first : Bool)
    (cells : List Doc) :
    Writes o (TableRow.cellItems true cells) (writeFlatCells o indent first cells) := by
  cases cells with
  | nil => exact .id
  | cons cell rest =>
      by_cases hempty : cell.isEmpty = true
      · have hcell : Writes o [(true, cell)] fun w => w :=
          .skip (.of_isEmpty true cell hempty) (leaves_of_isEmpty cell hempty)
        refine (hcell.comp (writesFlatCells ho indent first rest)).of_eq fun w => ?_
        simp only [writeFlatCells, hempty, if_true]
      · have hcell := (writes ho indent true 0 cell).comp (writesFlatCells ho indent false rest)
        refine (hcell.after_space (!first)).of_eq fun w => ?_
        simp only [writeFlatCells, hempty, Bool.not_eq_true', if_false, Bool.false_eq_true]
        cases first <;> rfl

/-- The cells of a broken row are written in order. -/
theorem writesPaddedCells (ho : IsNewline o.newline) (indent : Int) (tailWidth : Nat)
    (widths : List Int) (started : Bool) (cells : List Doc) :
    Writes o (TableRow.cellItems false cells)
      (writePaddedCells o indent tailWidth widths started cells) := by
  cases cells with
  | nil => exact .id
  | cons cell rest =>
      by_cases hrest : allEmpty rest = true
      · have hskip : Writes o (TableRow.cellItems false rest) fun w => w :=
          .skip (.of_emptyCells false rest hrest) (allLeaves_of_allEmpty rest hrest)
        rw [TableRow.cellItems, hrest]
        by_cases hempty : cell.isEmpty = true
        · have hcell : Writes o [(false, cell)] fun w => w :=
            .skip (.of_isEmpty false cell hempty) (leaves_of_isEmpty cell hempty)
          refine (hcell.comp hskip).of_eq fun w => ?_
          simp only [writePaddedCells, hempty, hrest, Bool.and_self, if_true]
        · have hcell := (writes ho indent false tailWidth cell).comp hskip
          refine (hcell.after_space started).of_eq fun w => ?_
          simp [writePaddedCells, hempty, hrest]
      · rw [Bool.not_eq_true] at hrest
        rw [TableRow.cellItems, hrest]
        by_cases hgone : cell.isEmpty = true ∧ widths.headD 0 = 0
        · have hcell : Writes o [(true, cell)] fun w => w :=
            .skip (.of_isEmpty true cell hgone.1) (leaves_of_isEmpty cell hgone.1)
          refine (hcell.comp (writesPaddedCells ho indent tailWidth widths.tail started rest)).of_eq
            fun w => ?_
          simp only [writePaddedCells, hgone.1, hgone.2, hrest, Bool.and_false, Bool.false_eq_true,
            if_false, beq_self_eq_true, Bool.and_self, if_true]
        · have hpad := (writesPaddedCells ho indent tailWidth widths.tail true rest).after_spaces
            (widths.headD 0 - (flat cell).width)
          have hcell := (writes ho indent true 0 cell).comp hpad
          refine (hcell.after_space started).of_eq fun w => ?_
          have hkeep : (cell.isEmpty && widths.headD 0 == 0) = false := by simpa using hgone
          simp only [writePaddedCells, hkeep, hrest, Bool.and_false, Bool.false_eq_true, if_false]

end

/-- Every rendering is a layout of the document, written without blanks at its end. -/
theorem render_laid (d : Doc) (ho : IsNewline o.newline) :
    ∃ ps, Laid [(false, d)] ps ∧ d.render o = Piece.output o.newline ps := by
  have hnormal := LayoutOptions.newline_normalize ho
  have hstart : Wrote {} (Piece.output o.normalize.newline []) [] := ⟨by simp, rfl, rfl⟩
  obtain ⟨new, blanks, hwrote, hlays⟩ :=
    writes (o := o.normalize) (hnormal.symm ▸ ho) 0 false 0 d {} [] [] hstart
  refine ⟨new, by simpa using hlays [] [] .nil, ?_⟩
  rw [render, hwrote.result, hnormal, List.nil_append]

/-- A page is a layout of the document, with a line end behind it unless it is empty. -/
theorem page_laid (d : Doc) (ho : IsNewline o.newline) :
    ∃ ps last, Laid [(false, d)] ps ∧ (last = [] ∨ last = [.newline]) ∧
      d.page o = Piece.output o.newline (ps ++ last) := by
  obtain ⟨ps, hlaid, hrender⟩ := d.render_laid ho
  rw [page, hrender]
  by_cases hempty : (Piece.output o.newline ps).isEmpty = true
  · refine ⟨ps, [], hlaid, .inl rfl, ?_⟩
    rw [List.append_nil, List.isEmpty_iff.mp hempty]
    rfl
  · refine ⟨ps, [.newline], hlaid, .inr rfl, ?_⟩
    simp [hempty, Piece.bytes]

end Doc

end VhdlStyle
