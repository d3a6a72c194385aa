import Mathlib.Data.List.TakeWhile
import VhdlStyle.Doc.Layout
import VhdlStyle.Proofs.Text.Splitting

/-! # Documents that fit on their line

Breaks in a group are taken all or none, and none of them where the group fits together with what
follows it. A document that forces no break, and all of whose breaks stand in groups, is therefore
written as a single stretch of its line wherever there is room for that stretch. -/

namespace VhdlStyle

/-! ## Stretches of a line -/

/-- A text for one line and the cells it takes. -/
@[ext]
structure Stretch where
  text : Bytes
  cells : Nat
  cells_eq_zero : text = [] → cells = 0
  lf_not_mem : Bytes.lf ∉ text

namespace Stretch

/-- Nothing. -/
def empty : Stretch := ⟨[], 0, fun _ => rfl, List.not_mem_nil⟩

/-- A text of its own width; nothing if it has several lines. -/
def ofText (s : Bytes) : Stretch :=
  if h : Bytes.lf ∈ s then empty else ⟨s, Cells.width s, by rintro rfl; rfl, h⟩

/-- The padding of a column; there is none if `n` is negative. -/
def blanks (n : Int) : Stretch where
  text := List.replicate n.toNat Bytes.space
  cells := n.toNat
  cells_eq_zero := by simp
  lf_not_mem h := by cases List.eq_of_mem_replicate h

/-- The space between two cells, where there is one. -/
def gap (between : Bool) : Stretch := if between then ofText [Bytes.space] else empty

/-- One after the other. -/
def append (a b : Stretch) : Stretch where
  text := a.text ++ b.text
  cells := a.cells + b.cells
  cells_eq_zero h := by
    rw [a.cells_eq_zero (List.append_eq_nil_iff.mp h).1,
      b.cells_eq_zero (List.append_eq_nil_iff.mp h).2]
  lf_not_mem h := (List.mem_append.mp h).elim a.lf_not_mem b.lf_not_mem

instance : Append Stretch := ⟨append⟩

@[simp]
theorem text_append (a b : Stretch) : (a ++ b).text = a.text ++ b.text := rfl

@[simp]
theorem cells_append (a b : Stretch) : (a ++ b).cells = a.cells + b.cells := rfl

theorem ofText_eq {s : Bytes} (h : Bytes.lf ∉ s) :
    ofText s = ⟨s, Cells.width s, by rintro rfl; rfl, h⟩ := dif_neg h

@[simp]
theorem text_empty : empty.text = [] := rfl

@[simp]
theorem cells_empty : empty.cells = 0 := rfl

@[simp]
theorem cells_gap (between : Bool) : (gap between).cells = if between then 1 else 0 := by
  cases between <;> rfl

theorem append_assoc (a b c : Stretch) : a ++ b ++ c = a ++ (b ++ c) := by
  ext1 <;> simp [Nat.add_assoc]

theorem append_of_text_eq_nil {a : Stretch} (h : a.text = []) (b : Stretch) : a ++ b = b := by
  ext1 <;> simp [h, a.cells_eq_zero h]

theorem append_eq_self_of_text_eq_nil (a : Stretch) {b : Stretch} (h : b.text = []) :
    a ++ b = a := by
  ext1 <;> simp [h, b.cells_eq_zero h]

end Stretch

/-- The bytes of some levels of indentation. -/
def LayoutOptions.indentation (o : LayoutOptions) (level : Int) : Bytes :=
  if o.tabs then List.replicate level.toNat Bytes.tab
  else List.replicate (level * o.indentSize).toNat Bytes.space

namespace Writer

variable {o : LayoutOptions}

/-- Writes a stretch of the line; the indentation that is due comes first, unless the stretch is
empty. -/
def put (w : Writer) (o : LayoutOptions) (s : Stretch) : Writer :=
  if s.text.isEmpty then w
  else { (w.startLine o).push s.text with col := (w.startLine o).col + s.cells }

theorem put_of_text_eq_nil (w : Writer) {s : Stretch} (h : s.text = []) : w.put o s = w := by
  simp [put, h]

theorem put_of_text_ne_nil (w : Writer) {s : Stretch} (h : s.text ≠ []) :
    w.put o s = { (w.startLine o).push s.text with col := (w.startLine o).col + s.cells } := by
  simp [put, h]

@[simp]
theorem put_empty (w : Writer) : w.put o .empty = w := w.put_of_text_eq_nil rfl

theorem startLine_of_started {w : Writer} (h : w.atLineStart = false) : w.startLine o = w := by
  simp [startLine, h]

theorem out_startLine {w : Writer} (h : w.atLineStart = true) :
    (w.startLine o).out = (o.indentation w.pending).reverse ++ w.out := by
  simp [startLine, h, push, LayoutOptions.indentation]

theorem atLineStart_startLine (w : Writer) : (w.startLine o).atLineStart = false := by
  rw [startLine]
  cases hstart : w.atLineStart with
  | true => rfl
  | false => exact hstart

theorem col_startLine (w : Writer) : (w.startLine o).col = w.column o := by
  rw [startLine, column]
  cases w.atLineStart <;> rfl

/-- Two stretches one after the other are one. -/
@[simp]
theorem put_put (w : Writer) (a b : Stretch) : (w.put o a).put o b = w.put o (a ++ b) := by
  by_cases ha : a.text = []
  · rw [w.put_of_text_eq_nil ha, Stretch.append_of_text_eq_nil ha]
  by_cases hb : b.text = []
  · rw [put_of_text_eq_nil _ hb, a.append_eq_self_of_text_eq_nil hb]
  have hab : (a ++ b).text ≠ [] := by simp [ha]
  have hstarted : (w.put o a).atLineStart = false := by
    rw [w.put_of_text_ne_nil ha]
    exact w.atLineStart_startLine
  rw [put_of_text_ne_nil _ hb, startLine_of_started hstarted, w.put_of_text_ne_nil ha,
    w.put_of_text_ne_nil hab]
  simp [push, Int.add_assoc]

@[simp]
theorem column_put (w : Writer) (s : Stretch) : (w.put o s).column o = w.column o + s.cells := by
  by_cases h : s.text = []
  · simp [w.put_of_text_eq_nil h, s.cells_eq_zero h]
  · rw [w.put_of_text_ne_nil h, ← w.col_startLine, column]
    simp [push, w.atLineStart_startLine]

theorem out_put (w : Writer) (s : Stretch) :
    (w.put o s).out = s.text.reverse ++ (if s.text = [] then w else w.startLine o).out := by
  by_cases h : s.text = []
  · rw [w.put_of_text_eq_nil h, if_pos h, h, List.reverse_nil, List.nil_append]
  · rw [w.put_of_text_ne_nil h, if_neg h]
    rfl

/-- The indentation of a line ends no line. -/
theorem count_startLine (w : Writer) : (w.startLine o).out.count Bytes.lf = w.out.count Bytes.lf := by
  rw [startLine]
  split
  · rfl
  · have htab : Bytes.lf ≠ Bytes.tab := by decide
    have hspace : Bytes.lf ≠ Bytes.space := by decide
    split <;> simp [push, List.count_replicate, htab.symm, hspace.symm]

theorem count_put (w : Writer) (s : Stretch) :
    (w.put o s).out.count Bytes.lf = w.out.count Bytes.lf := by
  have htext : s.text.reverse.count Bytes.lf = 0 :=
    List.count_eq_zero.mpr fun h => s.lf_not_mem (List.mem_reverse.mp h)
  rw [out_put, List.count_append, htext, Nat.zero_add]
  split
  · rfl
  · exact w.count_startLine

/-- A text without line feeds is a stretch. -/
theorem text_eq_put (w : Writer) {s : Bytes} (h : Bytes.lf ∉ s) :
    w.text o s = w.put o (.ofText s) := by
  rw [Writer.text, Bytes.split_of_not_mem h, put, Stretch.ofText_eq h]
  rfl

theorem text_space_eq_put (w : Writer) :
    w.text o [Bytes.space] = w.put o (.ofText [Bytes.space]) := w.text_eq_put (by decide)

theorem text_gap_eq_put (w : Writer) (between : Bool) :
    (if between then w.text o [Bytes.space] else w) = w.put o (.gap between) := by
  cases between with
  | true => exact w.text_space_eq_put
  | false => exact (w.put_empty).symm

theorem spaces_eq_put (w : Writer) (n : Int) : w.spaces o n = w.put o (.blanks n) := by
  rw [spaces]
  split
  · next h => exact (w.put_of_text_eq_nil (by simpa [Stretch.blanks] using h)).symm
  · next h =>
      have hpositive : 0 < n.toNat := by omega
      have hne : (Stretch.blanks n).text ≠ [] := by simp [Stretch.blanks]; omega
      have hcells : ((Stretch.blanks n).cells : Int) = n := Int.toNat_of_nonneg (by omega)
      rw [w.put_of_text_ne_nil hne, hcells]
      rfl

end Writer

namespace Doc

/-! ## Documents on one line -/

mutual

/-- The document on one line; nothing stands for what forces a break. -/
def stretch : Doc → Stretch
  | .text s => .ofText s
  | .line => .ofText [Bytes.space]
  | .softLine | .hardLine | .breakParent => .empty
  | .indent _ body => stretch body
  | .group body => stretch body
  | .concat parts => stretchAll parts
  | .table rows _ sep => stretchRows (stretch sep) true rows

/-- Documents one after the other on one line. -/
def stretchAll : List Doc → Stretch
  | [] => .empty
  | d :: rest => stretch d ++ stretchAll rest

/-- Table rows on one line; `first` says that no separator stands before them. -/
def stretchRows (sep : Stretch) (first : Bool) : List TableRow → Stretch
  | [] => .empty
  | row :: rest => (if first then .empty else sep) ++ stretchRow row ++ stretchRows sep false rest

/-- A table row on one line, without what stands above it. -/
def stretchRow : TableRow → Stretch
  | .mk _ cells tail => stretchCells true cells ++ stretch tail

/-- Cells on one line with single spaces. -/
def stretchCells (first : Bool) : List Doc → Stretch
  | [] => .empty
  | cell :: rest =>
    if cell.isEmpty then stretchCells first rest
    else .gap (!first) ++ stretch cell ++ stretchCells false rest

end

/-! ### The width of a stretch -/

theorem not_mem_of_forced {s : Bytes} (h : (Doc.text s).flat.forced = false) : Bytes.lf ∉ s := by
  rw [flat] at h
  intro hlf
  rw [if_pos (List.contains_iff_mem.mpr hlf)] at h
  cases h

mutual

theorem cells_stretch {d : Doc} (h : d.flat.forced = false) : d.stretch.cells = d.flat.width := by
  cases d with
  | text s =>
      have hlf := not_mem_of_forced h
      rw [flat, if_neg (by simpa using hlf), stretch, Stretch.ofText_eq hlf]
  | line => rfl
  | softLine => rfl
  | hardLine => cases h
  | breakParent => cases h
  | indent levels body => exact cells_stretch (d := body) h
  | group body => exact cells_stretch (d := body) h
  | concat parts => exact cells_stretchAll h
  | table rows widths sep => exact cells_stretchRows cells_stretch h

theorem cells_stretchAll {ds : List Doc} (h : (flatAll ds).forced = false) :
    (stretchAll ds).cells = (flatAll ds).width := by
  cases ds with
  | nil => rfl
  | cons d rest =>
      rw [flatAll, Flat.forced_append, Bool.or_eq_false_iff] at h
      rw [stretchAll, flatAll, Stretch.cells_append, Flat.width_append, cells_stretch h.1,
        cells_stretchAll h.2]

theorem cells_stretchRows {sep : Stretch} {f : Flat}
    (hsep : f.forced = false → sep.cells = f.width) {first : Bool} {rows : List TableRow}
    (h : (flatRows f first rows).forced = false) :
    (stretchRows sep first rows).cells = (flatRows f first rows).width := by
  cases rows with
  | nil => rfl
  | cons row rest =>
      simp only [flatRows, Flat.forced_append, Bool.or_eq_false_iff] at h
      obtain ⟨⟨hfirst, hrow⟩, hrest⟩ := h
      have hbefore : (if first then Stretch.empty else sep).cells =
          (if first then ({} : Flat) else f).width := by
        cases first with
        | true => rfl
        | false => exact hsep hfirst
      simp only [stretchRows, flatRows, Stretch.cells_append, Flat.width_append, hbefore,
        cells_stretchRow hrow, cells_stretchRows hsep hrest]

theorem cells_stretchRow {row : TableRow} (h : (flatRow row).forced = false) :
    (stretchRow row).cells = (flatRow row).width := by
  cases row with
  | mk leading cells tail =>
      simp only [flatRow, Flat.forced_append, Bool.or_eq_false_iff] at h
      obtain ⟨⟨-, hcells⟩, htail⟩ := h
      simp only [stretchRow, flatRow, Stretch.cells_append, Flat.width_append,
        cells_stretchCells hcells, cells_stretch htail, Nat.zero_add]

theorem cells_stretchCells {first : Bool} {cells : List Doc}
    (h : (flatCells first cells).forced = false) :
    (stretchCells first cells).cells = (flatCells first cells).width := by
  cases cells with
  | nil => rfl
  | cons cell rest =>
      rw [flatCells] at h ⊢
      rw [stretchCells]
      split at h
      · next hempty => rw [if_pos hempty, if_pos hempty, cells_stretchCells h]
      · next hempty =>
          simp only [Flat.forced_append, Bool.or_eq_false_iff] at h
          obtain ⟨⟨-, hcell⟩, hrest⟩ := h
          rw [if_neg hempty, if_neg hempty]
          simp only [Stretch.cells_append, Flat.width_append, cells_stretch hcell,
            cells_stretchCells hrest, Stretch.cells_gap]
          cases first <;> rfl

end

/-! ### In a group that fits -/

section

variable {o : LayoutOptions}

mutual

/-- Without breaks a document is written as its stretch. -/
theorem write_flat (indent : Int) (trail : Nat) {d : Doc} (h : d.flat.forced = false) (w : Writer) :
    write o indent true trail d w = w.put o d.stretch := by
  cases d with
  | text s => exact w.text_eq_put (not_mem_of_forced h)
  | line => exact w.text_space_eq_put
  | softLine => exact w.put_empty.symm
  | hardLine => cases h
  | breakParent => cases h
  | indent levels body => exact write_flat (indent + levels) trail (d := body) h w
  | group body =>
      rw [write]
      exact write_flat indent trail (d := body) h w
  | concat parts => exact writeAll_flat indent trail h w
  | table rows widths sep =>
      exact writeRows_flat indent widths (fun hsep w => write_flat indent 0 hsep w) h w

theorem writeAll_flat (indent : Int) (trail : Nat) {ds : List Doc}
    (h : (flatAll ds).forced = false) (w : Writer) :
    writeAll o indent true trail ds w = w.put o (stretchAll ds) := by
  cases ds with
  | nil => exact w.put_empty.symm
  | cons d rest =>
      rw [flatAll, Flat.forced_append, Bool.or_eq_false_iff] at h
      rw [writeAll, write_flat indent _ h.1, writeAll_flat indent trail h.2, Writer.put_put]
      rfl

theorem writeRows_flat (indent : Int) (widths : List Int) {writeSep : Writer → Writer}
    {sep : Stretch} {f : Flat} (hsep : f.forced = false → ∀ w, writeSep w = w.put o sep)
    {first : Bool} {rows : List TableRow} (h : (flatRows f first rows).forced = false)
    (w : Writer) :
    writeRows o indent true widths writeSep first rows w =
      w.put o (stretchRows sep first rows) := by
  cases rows with
  | nil => exact w.put_empty.symm
  | cons row rest =>
      simp only [flatRows, Flat.forced_append, Bool.or_eq_false_iff] at h
      obtain ⟨⟨hfirst, hrow⟩, hrest⟩ := h
      have hbefore : (if first then w else writeSep w) =
          w.put o (if first then .empty else sep) := by
        cases first with
        | true => exact w.put_empty.symm
        | false => exact hsep hfirst w
      rw [writeRows, hbefore, writeRow_flat indent widths hrow,
        writeRows_flat indent widths hsep hrest, Writer.put_put, Writer.put_put, stretchRows,
        Stretch.append_assoc]

theorem writeRow_flat (indent : Int) (widths : List Int) {row : TableRow}
    (h : (flatRow row).forced = false) (w : Writer) :
    writeRow o indent true widths row w = w.put o (stretchRow row) := by
  cases row with
  | mk leading cells tail =>
      simp only [flatRow, Flat.forced_append, Bool.or_eq_false_iff, Bool.not_eq_false',
        List.isEmpty_iff] at h
      obtain ⟨⟨rfl, hcells⟩, htail⟩ := h
      rw [writeRow, writeLeading, if_pos rfl, writeFlatCells_flat indent hcells,
        write_flat indent 0 htail, Writer.put_put]
      rfl

theorem writeFlatCells_flat (indent : Int) {first : Bool} {cells : List Doc}
    (h : (flatCells first cells).forced = false) (w : Writer) :
    writeFlatCells o indent first cells w = w.put o (stretchCells first cells) := by
  cases cells with
  | nil => exact w.put_empty.symm
  | cons cell rest =>
      rw [flatCells] at h
      rw [writeFlatCells, stretchCells]
      split at h
      · next hempty => rw [if_pos hempty, if_pos hempty, writeFlatCells_flat indent h]
      · next hempty =>
          simp only [Flat.forced_append, Bool.or_eq_false_iff] at h
          obtain ⟨⟨-, hcell⟩, hrest⟩ := h
          have hgap : (if first then w else w.text o [Bytes.space]) = w.put o (.gap (!first)) := by
            rw [← w.text_gap_eq_put]
            cases first <;> rfl
          rw [if_neg hempty, if_neg hempty, hgap]
          dsimp only
          rw [write_flat indent 0 hcell, writeFlatCells_flat indent hrest, Writer.put_put,
            Writer.put_put, Stretch.append_assoc]

end

/-- What is measured is what is written. On one line, a document in which nothing forces a break is
a text without line feeds that moves the column by the measured width; the text does not depend on
the state, the options, the indentation or what follows, and only the indentation that is due
stands before it. So a document that ends a line all the same is measured as forcing a break. -/
theorem measured_width_is_written_width (d : Doc) :
    (d.flat.forced = false →
      ∃ text : Bytes, Bytes.lf ∉ text ∧
        ∀ (o : LayoutOptions) (indent : Int) (trail : Nat) (w : Writer),
          (write o indent true trail d w).column o = w.column o + d.flat.width ∧
          (write o indent true trail d w).out =
            text.reverse ++ (if text = [] then w else w.startLine o).out) ∧
    ∀ (o : LayoutOptions) (indent : Int) (trail : Nat) (w : Writer),
      (write o indent true trail d w).out.count Bytes.lf ≠ w.out.count Bytes.lf →
        d.flat.forced = true := by
  constructor
  · intro h
    refine ⟨d.stretch.text, d.stretch.lf_not_mem, ?_⟩
    intro o indent trail w
    rw [write_flat indent trail h]
    constructor
    · rw [Writer.column_put, cells_stretch h]
    · exact w.out_put d.stretch
  · intro o indent trail w hends
    by_contra hforced
    have h : d.flat.forced = false := by simpa using hforced
    rw [write_flat indent trail h, Writer.count_put] at hends
    exact hends rfl

/-- The row of a port takes 13 cells on one line, none of them for its empty cell; the end of a line
forces a break. -/
theorem measured_width_is_written_width_of_row :
    let row : Doc := .table [.mk [] [.text "clk :", .empty, .text "in bit"] (.text ";")] [5, 3, 8]
      .hardLine
    (∃ text : Bytes, Bytes.lf ∉ text ∧
      ∀ (o : LayoutOptions) (indent : Int) (trail : Nat) (w : Writer),
        (write o indent true trail row w).column o = w.column o + (13 : Nat) ∧
        (write o indent true trail row w).out =
          text.reverse ++ (if text = [] then w else w.startLine o).out) ∧
    hardLine.flat.forced = true :=
  ⟨(measured_width_is_written_width _).1 (by decide),
    (measured_width_is_written_width hardLine).2 {} 0 0 {} (by decide)⟩

/-! ### What follows on the line -/

mutual

/-- The beginning of a document is no wider than the whole of it. -/
theorem lead_le {d : Doc} (h : d.flat.forced = false) : d.lead.1 ≤ d.flat.width := by
  cases d with
  | text s =>
      have hlf := not_mem_of_forced h
      have hline : firstLine s = s := Bytes.takeWhile_bne hlf
      rw [lead, flat, if_neg (by simpa using hlf), hline]
  | line => exact Nat.zero_le _
  | softLine => exact Nat.zero_le _
  | hardLine => cases h
  | breakParent => cases h
  | indent levels body => exact lead_le (d := body) h
  | group body => exact lead_le (d := body) h
  | concat parts => exact leadAll_le h
  | table rows widths sep => exact Nat.zero_le _

theorem leadAll_le {ds : List Doc} (h : (flatAll ds).forced = false) :
    (leadAll ds).1 ≤ (flatAll ds).width := by
  cases ds with
  | nil => exact Nat.zero_le _
  | cons d rest =>
      rw [flatAll, Flat.forced_append, Bool.or_eq_false_iff] at h
      have hd := lead_le h.1
      have hrest := leadAll_le h.2
      rw [leadAll, flatAll, Flat.width_append]
      split
      · next heq => rw [heq] at hd; omega
      · next heq => rw [heq] at hd; dsimp only at hd ⊢; omega

end

theorem trailAfter_le {rest : List Doc} (h : (flatAll rest).forced = false) (outer : Nat) :
    trailAfter rest outer ≤ (flatAll rest).width + outer := by
  have hlead := leadAll_le h
  rw [trailAfter]
  split
  · next heq => rw [heq] at hlead; omega
  · next heq => rw [heq] at hlead; omega

end

/-! ## Breaks in groups -/

mutual

/-- Every break of the document stands in a group. -/
def grouped : Doc → Bool
  | .text _ | .group _ => true
  | .line | .softLine | .hardLine | .breakParent | .table .. => false
  | .indent _ body => grouped body
  | .concat parts => allGrouped parts

/-- Every break of the documents stands in a group. -/
def allGrouped : List Doc → Bool
  | [] => true
  | d :: rest => grouped d && allGrouped rest

end

section

variable {o : LayoutOptions}

mutual

/-- A document that fits together with what follows it is written as its stretch. -/
theorem write_fitting (indent : Int) {trail : Nat} {d : Doc} (hforced : d.flat.forced = false)
    (hgrouped : d.grouped = true) {w : Writer}
    (hfits : w.column o + d.flat.width + trail ≤ o.width) :
    write o indent false trail d w = w.put o d.stretch := by
  cases d with
  | text s => exact w.text_eq_put (not_mem_of_forced hforced)
  | group body =>
      have hbody : body.flat.forced = false := hforced
      have hroom : w.column o + body.flat.width + trail ≤ o.width := hfits
      rw [write, hbody, decide_eq_true hroom]
      exact write_flat indent trail (d := body) hforced w
  | indent levels body => exact write_fitting (indent + levels) (d := body) hforced hgrouped hfits
  | concat parts => exact writeAll_fitting indent hforced hgrouped hfits
  | line => cases hgrouped
  | softLine => cases hgrouped
  | hardLine => cases hgrouped
  | breakParent => cases hgrouped
  | table rows widths sep => cases hgrouped

theorem writeAll_fitting (indent : Int) {trail : Nat} {ds : List Doc}
    (hforced : (flatAll ds).forced = false) (hgrouped : allGrouped ds = true) {w : Writer}
    (hfits : w.column o + (flatAll ds).width + trail ≤ o.width) :
    writeAll o indent false trail ds w = w.put o (stretchAll ds) := by
  cases ds with
  | nil => exact w.put_empty.symm
  | cons d rest =>
      rw [flatAll, Flat.forced_append, Bool.or_eq_false_iff] at hforced
      rw [allGrouped, Bool.and_eq_true] at hgrouped
      rw [flatAll, Flat.width_append, Int.natCast_add] at hfits
      have htrail := trailAfter_le hforced.2 trail
      have hcells : ((d.stretch.cells : Nat) : Int) = d.flat.width := by
        rw [cells_stretch hforced.1]
      rw [writeAll, write_fitting indent hforced.1 hgrouped.1 (by omega),
        writeAll_fitting indent hforced.2 hgrouped.2 (by rw [Writer.column_put]; omega),
        Writer.put_put]
      rfl

end

end

/-! ## Padded rows -/

/-- Cells padded to their columns on one line; no padding follows the last one. -/
def padded (widths : List Int) (started : Bool) : List Doc → Stretch
  | [] => .empty
  | cell :: rest =>
    if cell.isEmpty && allEmpty rest then .empty
    else if cell.isEmpty && widths.headD 0 == 0 then padded widths.tail started rest
    else if allEmpty rest then .gap started ++ cell.stretch
    else .gap started ++ cell.stretch ++ .blanks (widths.headD 0 - cell.flat.width) ++
      padded widths.tail true rest

/-- A table row on one line, its cells padded, without what stands above it. -/
def paddedRow (widths : List Int) (row : TableRow) : Stretch :=
  padded widths false row.cells ++ row.tail.stretch

/-- Every break of the last cell that is not empty stands in a group. The cells before it are
never broken. -/
def lastGrouped : List Doc → Bool
  | [] => true
  | cell :: rest => if allEmpty rest then cell.grouped else lastGrouped rest

section

variable {o : LayoutOptions}

theorem writePaddedCells_fitting (indent : Int) {tailWidth : Nat} {widths : List Int}
    {started : Bool} {cells : List Doc} (hforced : ∀ cell ∈ cells, cell.flat.forced = false)
    (hgrouped : lastGrouped cells = true) {w : Writer}
    (hfits : w.column o + (padded widths started cells).cells + tailWidth ≤ o.width) :
    writePaddedCells o indent tailWidth widths started cells w =
      w.put o (padded widths started cells) := by
  induction cells generalizing widths started w with
  | nil => exact w.put_empty.symm
  | cons cell rest ih =>
      obtain ⟨hcell, hrest⟩ := List.forall_mem_cons.mp hforced
      have hcells : ((cell.stretch.cells : Nat) : Int) = cell.flat.width := by
        rw [cells_stretch hcell]
      rw [lastGrouped] at hgrouped
      rw [padded] at hfits ⊢
      rw [writePaddedCells]
      split
      · exact w.put_empty.symm
      · next hshown =>
          rw [if_neg hshown] at hfits
          dsimp only
          split
          · next hskip =>
              have hmore : allEmpty rest = false := by
                simp only [Bool.and_eq_true, not_and] at hshown hskip
                simpa using hshown hskip.1
              rw [if_pos hskip] at hfits
              rw [if_neg (by simp [hmore])] at hgrouped
              exact ih hrest hgrouped hfits
          · next hskip =>
              rw [if_neg hskip] at hfits
              rw [w.text_gap_eq_put]
              split
              · next hlast =>
                  rw [if_pos hlast] at hfits hgrouped
                  rw [Stretch.cells_append, Int.natCast_add] at hfits
                  rw [write_fitting indent hcell hgrouped (by rw [Writer.column_put]; omega),
                    Writer.put_put]
              · next hmore =>
                  rw [if_neg hmore] at hfits hgrouped
                  simp only [Stretch.cells_append, Int.natCast_add] at hfits
                  have hroom : (((w.put o (.gap started)).put o cell.stretch).put o
                      (.blanks (widths.headD 0 - cell.flat.width))).column o +
                      (padded widths.tail true rest).cells + tailWidth ≤ o.width := by
                    simp only [Writer.column_put]
                    omega
                  rw [write_flat indent 0 hcell, Writer.spaces_eq_put, ih hrest hgrouped hroom]
                  simp only [Writer.put_put, Stretch.append_assoc]

/-- A row of a broken table that fits, padding and tail included, is written as its stretch below
the lines above it. -/
theorem writeRow_fitting (indent : Int) {widths : List Int} {row : TableRow}
    (hcells : ∀ cell ∈ row.cells, cell.flat.forced = false)
    (hlast : lastGrouped row.cells = true) (htail : row.tail.flat.forced = false)
    (htailGrouped : row.tail.grouped = true) {w : Writer}
    (hfits : (writeLeading o indent false row.leading w).column o +
      (paddedRow widths row).cells ≤ o.width) :
    writeRow o indent false widths row w =
      (writeLeading o indent false row.leading w).put o (paddedRow widths row) := by
  cases row with
  | mk leading cells tail =>
      have hlead := lead_le htail
      have htailCells := cells_stretch htail
      simp only [paddedRow, TableRow.cells, TableRow.tail, TableRow.leading, Stretch.cells_append,
        Int.natCast_add] at hcells hlast htail htailGrouped hfits hlead htailCells ⊢
      rw [writeRow, if_neg Bool.false_ne_true,
        writePaddedCells_fitting indent hcells hlast (by omega)]
      rw [write_fitting indent htail htailGrouped (by rw [Writer.column_put]; omega),
        Writer.put_put]

end

end Doc

end VhdlStyle
