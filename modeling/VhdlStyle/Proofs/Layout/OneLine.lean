import Mathlib.Data.List.DropRight
import VhdlStyle.Doc.Block
import VhdlStyle.Proofs.Layout.Fitting
import VhdlStyle.Proofs.Layout.SideBySide

/-! # Rows that stay on one line

While a document is laid out, the layout comes to its parts one after the other. A row to which it
comes at the start of a line, or inside a group that is on one line, is written on one line wherever
it fits, however deep in the document it stands; and what is written stays written, but for blanks
at the ends of lines. -/

namespace VhdlStyle

namespace Writer

variable {o : LayoutOptions} {w w' : Writer}

/-! ## What is written stays -/

/-- What the one writer has written stands at the beginning of what the other has, but for blanks
at its end. -/
def StaysIn (w w' : Writer) : Prop := w.out.dropWhile isBlank <:+ w'.out

theorem staysIn_of_suffix (h : w.out <:+ w'.out) : w.StaysIn w' :=
  (List.dropWhile_suffix _).trans h

theorem StaysIn.refl (w : Writer) : w.StaysIn w := staysIn_of_suffix List.suffix_rfl

theorem StaysIn.of_suffix {v : Writer} (h : v.StaysIn w) (hout : w.out <:+ w'.out) :
    v.StaysIn w' :=
  List.IsSuffix.trans h hout

/-- A text that does not start with a blank survives the loss of blanks in front of it. -/
theorem suffix_dropWhile {p : UInt8 → Bool} {t u : Bytes} (h : t.dropWhile p <:+ u) :
    t.dropWhile p <:+ u.dropWhile p := by
  obtain ⟨front, rfl⟩ := h
  induction front with
  | nil => exact ⟨[], (List.dropWhile_idempotent p t).symm⟩
  | cons b front ih =>
      by_cases hb : p b = true
      · rw [List.cons_append, List.dropWhile_cons_of_pos hb]
        exact ih
      · rw [List.cons_append, List.dropWhile_cons_of_neg hb]
        exact ⟨b :: front, rfl⟩

theorem StaysIn.trans {v : Writer} (h : v.StaysIn w) (h' : w.StaysIn w') : v.StaysIn w' :=
  (suffix_dropWhile h).trans h'

theorem staysIn_startLine (w : Writer) : w.StaysIn (w.startLine o) := by
  rw [startLine]
  split
  · exact .refl w
  · exact staysIn_of_suffix (List.suffix_append _ _)

theorem staysIn_newline (w : Writer) (indent : Int) : w.StaysIn (w.newline o indent) :=
  List.suffix_append _ _

theorem staysIn_textLines (w : Writer) (lines : List Bytes) : w.StaysIn (textLines o w lines) := by
  rw [textLines]
  induction lines generalizing w with
  | nil => exact .refl w
  | cons line lines ih =>
      refine StaysIn.trans ?_ (ih _)
      exact (w.staysIn_newline 0).of_suffix (List.suffix_append _ _)

theorem staysIn_text (w : Writer) (s : Bytes) : w.StaysIn (w.text o s) := by
  rw [text]
  split
  · exact .refl w
  · refine StaysIn.trans ?_ (staysIn_textLines _ _)
    split
    · exact .refl w
    · exact (w.staysIn_startLine).of_suffix (List.suffix_append _ _)

theorem staysIn_spaces (w : Writer) (n : Int) : w.StaysIn (w.spaces o n) := by
  rw [spaces]
  split
  · exact .refl w
  · exact (w.staysIn_startLine).of_suffix (List.suffix_append _ _)

/-- No step takes a text away. -/
theorem staysIn_inStep (v : Writer) : InStep o o fun w w' => w = w' ∧ v.StaysIn w where
  width := rfl
  column h := by rw [h.1]
  text s h := ⟨by rw [h.1], h.2.trans (staysIn_text _ s)⟩
  newline indent h := ⟨by rw [h.1], h.2.trans (staysIn_newline _ indent)⟩
  spaces n h := ⟨by rw [h.1], h.2.trans (staysIn_spaces _ n)⟩

theorem staysIn_write (indent : Int) (flat : Bool) (trail : Nat) (d : Doc) (w : Writer) :
    w.StaysIn (d.write o indent flat trail w) :=
  ((staysIn_inStep w).write indent flat trail d ⟨rfl, .refl w⟩).2

theorem staysIn_writeAll (indent : Int) (flat : Bool) (trail : Nat) (ds : List Doc) (w : Writer) :
    w.StaysIn (Doc.writeAll o indent flat trail ds w) :=
  ((staysIn_inStep w).writeAll indent flat trail ds ⟨rfl, .refl w⟩).2

theorem staysIn_writeRows (indent : Int) (flat : Bool) (widths : List Int) (sep : Doc)
    (first : Bool) (rows : List TableRow) (w : Writer) :
    w.StaysIn (Doc.writeRows o indent flat widths (sep.write o indent flat 0) first rows w) :=
  ((staysIn_inStep w).writeRows indent flat widths
    (fun h => (staysIn_inStep w).write indent flat 0 sep h) first rows ⟨rfl, .refl w⟩).2

/-- The indentation that is due is not more than blanks. -/
theorem dropWhile_startLine (w : Writer) :
    (w.startLine o).out.dropWhile isBlank = w.out.dropWhile isBlank := by
  rw [startLine]
  split
  · rfl
  · refine List.dropWhile_append_of_pos fun b hb => ?_
    have hblank : b = Bytes.tab ∨ b = Bytes.space := by
      rw [List.mem_reverse] at hb
      split at hb
      · exact .inl (List.eq_of_mem_replicate hb)
      · exact .inr (List.eq_of_mem_replicate hb)
    rcases hblank with rfl | rfl <;> rfl

theorem StaysIn.result (h : w.StaysIn w') :
    Bytes.trimRight isBlank w.out.reverse <+: w'.result := by
  rw [Bytes.trimRight, List.reverse_reverse, Writer.result]
  exact List.reverse_prefix.mpr (suffix_dropWhile h)

/-! ## Line ends -/

/-- The lines that have ended. -/
def lines (w : Writer) : Nat := w.out.count Bytes.lf

theorem count_dropWhile (s : Bytes) :
    (s.dropWhile isBlank).count Bytes.lf = s.count Bytes.lf := by
  induction s with
  | nil => rfl
  | cons b rest ih =>
      rw [List.dropWhile_cons]
      split
      · next hblank =>
          rw [ih, List.count_cons_of_ne]
          rintro rfl
          cases hblank
      · rfl

theorem lines_newline (w : Writer) (indent : Int) :
    (w.newline o indent).lines = o.newline.count Bytes.lf + w.lines := by
  rw [lines, newline, List.count_append, List.count_reverse, count_dropWhile]
  rfl

/-- A line that has ended stays so. -/
theorem StaysIn.lines_le (h : w.StaysIn w') : w.lines ≤ w'.lines := by
  rw [lines, ← count_dropWhile]
  exact h.sublist.count_le Bytes.lf

/-! ## Starts of lines -/

/-- The writer stands at the start of a line with a level of indentation: nothing or a line end is
before it. -/
structure StartsLine (o : LayoutOptions) (level : Int) (w : Writer) : Prop where
  atLineStart : w.atLineStart = true
  pending : w.pending = level
  ends : w.out = [] ∨ o.newline.reverse <+: w.out

theorem startsLine_start (o : LayoutOptions) : ({} : Writer).StartsLine o 0 := ⟨rfl, rfl, .inl rfl⟩

theorem startsLine_newline (w : Writer) (indent : Int) : (w.newline o indent).StartsLine o indent :=
  ⟨rfl, rfl, .inr (List.prefix_append _ _)⟩

namespace StartsLine

variable {level : Int}

theorem column (h : w.StartsLine o level) : w.column o = level * o.indentSize := by
  rw [Writer.column, if_pos h.atLineStart, h.pending]

theorem out_startLine (h : w.StartsLine o level) :
    (w.startLine o).out = (o.indentation level).reverse ++ w.out := by
  rw [Writer.out_startLine h.atLineStart, h.pending]

/-- Behind the indentation comes what is put on the line. -/
theorem out_startLine_put (h : w.StartsLine o level) (s : Stretch) :
    ((w.put o s).startLine o).out =
      s.text.reverse ++ ((o.indentation level).reverse ++ w.out) := by
  by_cases htext : s.text = []
  · rw [w.put_of_text_eq_nil htext, h.out_startLine, htext, List.reverse_nil, List.nil_append]
  · have hstarted : (w.put o s).atLineStart = false := by
      rw [w.put_of_text_ne_nil htext]
      exact w.atLineStart_startLine
    rw [startLine_of_started hstarted, w.out_put, if_neg htext, h.out_startLine]

theorem writeLeading (h : w.StartsLine o level) (ds : List Doc) :
    (Doc.writeLeading o level false ds w).StartsLine o level := by
  induction ds generalizing w with
  | nil => exact h
  | cons d rest ih => exact ih (startsLine_newline _ level)

end StartsLine

end Writer

/-! ## Documents one after the other -/

namespace Doc

variable {o : LayoutOptions} {level : Int} {trail : Nat}

theorem leadAll_append (xs ys : List Doc) :
    leadAll (xs ++ ys) =
      if (leadAll xs).2 then leadAll xs
      else ((leadAll xs).1 + (leadAll ys).1, (leadAll ys).2) := by
  induction xs with
  | nil => simp [leadAll]
  | cons d xs ih =>
      rw [List.cons_append, leadAll, leadAll, ih]
      cases d.lead with
      | mk n stops =>
          cases stops with
          | true => rfl
          | false =>
              dsimp only
              split <;> simp_all [Nat.add_assoc]

theorem trailAfter_append (xs ys : List Doc) (trail : Nat) :
    trailAfter (xs ++ ys) trail = trailAfter xs (trailAfter ys trail) := by
  rw [trailAfter, trailAfter, trailAfter, leadAll_append]
  cases leadAll xs with
  | mk n stops =>
      cases stops with
      | true => rfl
      | false =>
          cases leadAll ys with
          | mk m stopsToo => cases stopsToo <;> simp [Nat.add_assoc]

theorem writeAll_append (flat : Bool) (xs ys : List Doc) (w : Writer) :
    writeAll o level flat trail (xs ++ ys) w =
      writeAll o level flat trail ys (writeAll o level flat (trailAfter ys trail) xs w) := by
  induction xs generalizing w with
  | nil => rfl
  | cons d xs ih => rw [List.cons_append, writeAll, writeAll, ih, trailAfter_append]

/-- A document stands behind a separator, or first, and before another separator, or last. -/
theorem exists_intersperse (sep : Doc) {ds : List Doc} (hd : d ∈ ds) :
    ∃ front back, ds.intersperse sep = front ++ d :: back ∧
      (front = [] ∨ ∃ before, front = before ++ [sep]) ∧
      (back = [] ∨ ∃ after, back = sep :: after) := by
  induction ds with
  | nil => cases hd
  | cons e rest ih =>
      cases rest with
      | nil =>
          obtain rfl : d = e := by simpa using hd
          exact ⟨[], [], rfl, .inl rfl, .inl rfl⟩
      | cons next rest =>
          rw [List.intersperse_cons_cons]
          rcases List.mem_cons.mp hd with rfl | hd
          · exact ⟨[], _, rfl, .inl rfl, .inr ⟨_, rfl⟩⟩
          · obtain ⟨front, back, hsplit, hfront, hback⟩ := ih hd
            rw [hsplit]
            refine ⟨e :: sep :: front, back, rfl, .inr ?_, hback⟩
            rcases hfront with rfl | ⟨before, rfl⟩
            · exact ⟨[e], rfl⟩
            · exact ⟨e :: sep :: before, rfl⟩

theorem forced_flatAll_append (xs ys : List Doc) :
    (flatAll (xs ++ ys)).forced = ((flatAll xs).forced || (flatAll ys).forced) := by
  induction xs with
  | nil => simp [flatAll]
  | cons d xs ih => simp [flatAll, ih, Bool.or_assoc]

/-- One document that shows something is enough. -/
theorem allEmpty_eq_false {d : Doc} {ds : List Doc} (hd : d ∈ ds) (hshown : d.isEmpty = false) :
    allEmpty ds = false := by
  induction ds with
  | nil => cases hd
  | cons e rest ih =>
      rw [allEmpty]
      rcases List.mem_cons.mp hd with rfl | hd
      · rw [hshown, Bool.false_and]
      · rw [ih hd, Bool.and_false]

end Doc

/-! ## Rows -/

/-- A document that may stand on a line of its own, or a row of a table. -/
inductive Row where
  | line (d : Doc)
  | cells (widths : List Int) (row : TableRow)

namespace Row

/-- The row on one line, the cells of a table row padded. -/
def stretch : Row → Stretch
  | line d => d.stretch
  | cells widths row => Doc.paddedRow widths row

/-- The forms of the row on one line: the cells of a table row are padded, or parted by single
spaces where the whole table is on one line. -/
def texts : Row → List Bytes
  | line d => [d.stretch.text]
  | cells widths row => [(Doc.paddedRow widths row).text, (Doc.stretchRow row).text]

/-- Each of them is a part of a line. -/
theorem lf_not_mem {r : Row} {s : Bytes} (hs : s ∈ r.texts) : Bytes.lf ∉ s := by
  cases r with
  | line d =>
      obtain rfl : s = d.stretch.text := by simpa [texts] using hs
      exact d.stretch.lf_not_mem
  | cells widths row =>
      rcases List.mem_cons.mp hs with rfl | hs
      · exact (Doc.paddedRow widths row).lf_not_mem
      · obtain rfl : s = (Doc.stretchRow row).text := by simpa using hs
        exact (Doc.stretchRow row).lf_not_mem

/-- Nothing in the row forces a break. -/
def Unforced : Row → Prop
  | line d => d.flat.forced = false
  | cells _ row => (∀ cell ∈ row.cells, cell.flat.forced = false) ∧ row.tail.flat.forced = false

/-- Every break in the row that may be taken stands in a group. -/
def Grouped : Row → Prop
  | line d => d.grouped = true
  | cells _ row => Doc.lastGrouped row.cells = true ∧ row.tail.grouped = true

/-- The row has room on one line at a level of indentation. -/
def HasRoom (o : LayoutOptions) (level : Int) (r : Row) : Prop :=
  level * o.indentSize + r.stretch.cells ≤ o.width

/-- The row has to stay on one line at a level of indentation. -/
structure Fits (o : LayoutOptions) (level : Int) (r : Row) : Prop where
  unforced : r.Unforced
  grouped : r.Grouped
  room : r.HasRoom o level

/-- The width of the row on one line, and whether something in it forces a break. -/
def flat : Row → Doc.Flat
  | line d => d.flat
  | cells _ row => Doc.flatRow row

end Row

/-- A row and the level of indentation at which it is printed. -/
structure PlacedRow where
  level : Int
  row : Row

/-- The row has to stay on one line where it is printed. -/
def PlacedRow.Fits (o : LayoutOptions) (x : PlacedRow) : Prop := x.row.Fits o x.level

/-! ## Places in a layout -/

/-- How a document is laid out at some point of a layout, and the writer there. -/
structure Place where
  level : Int
  flat : Bool
  trail : Nat
  writer : Writer

namespace Row

variable (o : LayoutOptions) (v : Place)

/-- The writer below the lines above a row. -/
def front : Row → Writer
  | line _ => v.writer
  | cells _ row => Doc.writeLeading o v.level v.flat row.leading v.writer

/-- The writer behind a row. -/
def behind : Row → Writer
  | line d => d.write o v.level v.flat v.trail v.writer
  | cells widths row => Doc.writeRow o v.level v.flat widths row v.writer

end Row

/-- While a document is laid out at a place, the layout comes to a row at another: the row is the
document itself, one of its parts, or what some of them that follow one another make up. -/
inductive Doc.Reaches (o : LayoutOptions) : Doc → Place → Row → Place → Prop where
  | self (d : Doc) (v : Place) : Reaches o d v (.line d) v
  | head {d : Doc} {rest : List Doc} {level : Int} {flat : Bool} {trail : Nat} {w : Writer}
      {r : Row} {v : Place} (h : Reaches o d ⟨level, flat, trailAfter rest trail, w⟩ r v) :
      Reaches o (.concat (d :: rest)) ⟨level, flat, trail, w⟩ r v
  | initial {ds rest : List Doc} {level : Int} {flat : Bool} {trail : Nat} {w : Writer} {r : Row}
      {v : Place} (h : Reaches o (.concat ds) ⟨level, flat, trailAfter rest trail, w⟩ r v) :
      Reaches o (.concat (ds ++ rest)) ⟨level, flat, trail, w⟩ r v
  | final {front ds : List Doc} {level : Int} {flat : Bool} {trail : Nat} {w : Writer} {r : Row}
      {v : Place} (h : Reaches o (.concat ds)
        ⟨level, flat, trail, writeAll o level flat (trailAfter ds trail) front w⟩ r v) :
      Reaches o (.concat (front ++ ds)) ⟨level, flat, trail, w⟩ r v
  | indent {levels : Int} {body : Doc} {level : Int} {flat : Bool} {trail : Nat} {w : Writer}
      {r : Row} {v : Place} (h : Reaches o body ⟨level + levels, flat, trail, w⟩ r v) :
      Reaches o (.indent levels body) ⟨level, flat, trail, w⟩ r v
  | group {body : Doc} {level : Int} {flat : Bool} {trail : Nat} {w : Writer} {r : Row} {v : Place}
      (h : Reaches o body ⟨level, flat || (!body.flat.forced &&
        decide (w.column o + body.flat.width + trail ≤ o.width)), trail, w⟩ r v) :
      Reaches o (.group body) ⟨level, flat, trail, w⟩ r v
  | row {row : TableRow} {rest : List TableRow} {widths : List Int} {sep : Doc} {level : Int}
      {flat : Bool} {trail : Nat} {w : Writer} :
      Reaches o (.table (row :: rest) widths sep) ⟨level, flat, trail, w⟩ (.cells widths row)
        ⟨level, flat, 0, w⟩
  | next {row : TableRow} {rest : List TableRow} {widths : List Int} {sep : Doc} {level : Int}
      {flat : Bool} {trail : Nat} {w : Writer} {r : Row} {v : Place}
      (h : Reaches o (.table rest widths sep)
        ⟨level, flat, trail, sep.write o level flat 0 (writeRow o level flat widths row w)⟩ r v)
      (hrest : rest ≠ []) :
      Reaches o (.table (row :: rest) widths sep) ⟨level, flat, trail, w⟩ r v

/-- What is written for a row stays in what is written for the document. -/
theorem Doc.Reaches.staysIn {o : LayoutOptions} {d : Doc} {u v : Place} {r : Row}
    (h : d.Reaches o u r v) :
    (r.behind o v).StaysIn (d.write o u.level u.flat u.trail u.writer) := by
  induction h with
  | self d v => exact .refl _
  | head h ih => exact ih.trans (Writer.staysIn_writeAll _ _ _ _ _)
  | initial h ih =>
      rw [write, writeAll_append]
      exact ih.trans (Writer.staysIn_writeAll _ _ _ _ _)
  | final h ih =>
      rw [write, writeAll_append]
      exact ih
  | indent h ih => exact ih
  | group h ih => exact ih
  | row => exact Writer.staysIn_writeRows _ _ _ _ _ _ _
  | @next row rest widths sep level flat trail w r v h hrest ih =>
      obtain ⟨next, rest, rfl⟩ := List.exists_cons_of_ne_nil hrest
      exact ih

/-- The layout comes to the row for itself: at the start of a line of its level with nothing behind
it, or inside a group that is on one line. -/
structure PlacedRow.StartsAt (o : LayoutOptions) (x : PlacedRow) (v : Place) : Prop where
  level_eq : v.level = x.level
  starts : v.flat = false → v.trail = 0 ∧ v.writer.StartsLine o x.level
  unforced : v.flat = true → x.row.flat.forced = false

/-- The row stands on one line of the output, right behind what the layout has written when it comes
to the row and, unless that is inside a group on one line, from the start of the line on. -/
structure PlacedRow.OnOneLine (o : LayoutOptions) (x : PlacedRow) (v : Place) (text output : Bytes) :
    Prop where
  mem_texts : text ∈ x.row.texts
  lf_not_mem : Bytes.lf ∉ text
  written : Bytes.trimRight Writer.isBlank
    (((x.row.front o v).startLine o).out.reverse ++ text) <+: output
  starts : v.flat = false → (x.row.front o v).StartsLine o x.level

namespace PlacedRow

variable {o : LayoutOptions} {x : PlacedRow} {v : Place}

/-- A row that fits is written as a stretch of its line; in a group on one line every row fits. -/
theorem StartsAt.exists_put (h : x.StartsAt o v) (hfits : v.flat = false → x.Fits o) :
    ∃ s : Stretch, s.text ∈ x.row.texts ∧ x.row.behind o v = (x.row.front o v).put o s := by
  obtain ⟨placeLevel, flat, trail, w⟩ := v
  obtain ⟨level, r⟩ := x
  obtain ⟨rfl, hstarts, hunforced⟩ := h
  cases flat with
  | true =>
      cases r with
      | line d => exact ⟨d.stretch, List.mem_cons_self, Doc.write_flat _ _ (hunforced rfl) w⟩
      | cells widths row =>
          refine ⟨Doc.stretchRow row, List.mem_cons_of_mem _ List.mem_cons_self, ?_⟩
          have hforced : (Doc.flatRow row).forced = false := hunforced rfl
          cases row with
          | mk leading cells tail =>
              simp only [Doc.flatRow, Doc.Flat.forced_append, Bool.or_eq_false_iff,
                Bool.not_eq_false', List.isEmpty_iff] at hforced
              obtain ⟨⟨rfl, -⟩, -⟩ := hforced
              exact Doc.writeRow_flat _ widths (hunforced rfl) w
  | false =>
      obtain ⟨htrail, hstart⟩ := hstarts rfl
      obtain ⟨hforced, hgrouped, hroom⟩ := hfits rfl
      cases r with
      | line d =>
          have hcells := Doc.cells_stretch hforced
          have hroom : placeLevel * o.indentSize + d.stretch.cells ≤ o.width := hroom
          have hcolumn := hstart.column
          obtain rfl : trail = 0 := htrail
          exact ⟨d.stretch, List.mem_cons_self,
            Doc.write_fitting _ hforced hgrouped (by dsimp only at hcolumn ⊢; omega)⟩
      | cells widths row =>
          have hroom : placeLevel * o.indentSize + (Doc.paddedRow widths row).cells ≤ o.width :=
            hroom
          refine ⟨Doc.paddedRow widths row, List.mem_cons_self, ?_⟩
          refine Doc.writeRow_fitting _ hforced.1 hgrouped.1 hforced.2 hgrouped.2 ?_
          rwa [(hstart.writeLeading row.leading).column]

/-- A row that fits is on one line wherever the layout comes to it. -/
theorem StartsAt.onOneLine (h : x.StartsAt o v) (hfits : v.flat = false → x.Fits o) {w : Writer}
    (hstays : (x.row.behind o v).StaysIn w) : ∃ text, x.OnOneLine o v text w.result := by
  obtain ⟨s, htext, hput⟩ := h.exists_put hfits
  refine ⟨s.text, htext, Row.lf_not_mem htext, ?_, fun hflat => ?_⟩
  · have hresult := hstays.result
    rw [hput, Writer.out_put, List.reverse_append, List.reverse_reverse] at hresult
    split at hresult
    · next hnil =>
        rw [hnil, List.append_nil] at hresult ⊢
        rw [Bytes.trimRight, List.reverse_reverse] at hresult ⊢
        rwa [Writer.dropWhile_startLine]
    · exact hresult
  · have hstart := (h.starts hflat).2
    cases hrow : x.row with
    | line d => exact hstart
    | cells widths row =>
        rw [Row.front, hflat, h.level_eq]
        exact hstart.writeLeading row.leading

theorem OnOneLine.mono {text output output' : Bytes} (h : x.OnOneLine o v text output)
    (houtput : output <+: output') : x.OnOneLine o v text output' :=
  { h with written := h.written.trans houtput }

end PlacedRow

/-! ## Breaks outside groups -/

namespace Doc

variable {o : LayoutOptions} {d : Doc} {ds : List Doc}

/-- The document ends a line wherever it is laid out, unless that is inside a group on one line. -/
def EndsLine (o : LayoutOptions) (d : Doc) : Prop :=
  ∀ level trail w, w.lines < (d.write o level false trail w).lines

theorem endsLine_line (h : Bytes.lf ∈ o.newline) : Doc.line.EndsLine o := by
  intro level trail w
  have hcount := List.count_pos_iff.mpr h
  have hlines := w.lines_newline (o := o) level
  change w.lines < (w.newline o level).lines
  omega

theorem endsLine_hardLine (h : Bytes.lf ∈ o.newline) : Doc.hardLine.EndsLine o := endsLine_line h

theorem EndsLine.indent (h : d.EndsLine o) (levels : Int) : (Doc.indent levels d).EndsLine o :=
  fun level trail w => h (level + levels) trail w

theorem EndsLine.concat (h : d.EndsLine o) (hd : d ∈ ds) : (Doc.concat ds).EndsLine o := by
  intro level trail w
  rw [write]
  induction ds generalizing w with
  | nil => cases hd
  | cons e rest ih =>
      rw [writeAll]
      rcases List.mem_cons.mp hd with rfl | hd
      · exact (h level _ w).trans_le (Writer.staysIn_writeAll _ _ _ _ _).lines_le
      · exact (Writer.staysIn_write _ _ _ e w).lines_le.trans_lt (ih hd _)

/-- A list shows the documents that are not empty. -/
theorem EndsLine.join (h : d.EndsLine o) (hd : d ∈ ds) (hshown : d.isEmpty = false) (sep : Doc) :
    (Doc.join sep ds).EndsLine o := by
  have hkept : d ∈ ds.filter fun d => !d.isEmpty := List.mem_filter.mpr ⟨hd, by simp [hshown]⟩
  obtain ⟨front, back, hsplit, -, -⟩ := exists_intersperse sep hkept
  rw [Doc.join, hsplit]
  exact h.concat (by simp)

/-- The last cell that is not empty is laid out as any document. -/
theorem EndsLine.writePaddedCells {cell : Doc} (h : cell.EndsLine o)
    (hshown : cell.isEmpty = false) {rest : List Doc} (hrest : allEmpty rest = true)
    (front : List Doc) (level : Int) (tailWidth : Nat) (widths : List Int) (started : Bool)
    (w : Writer) :
    w.lines < (writePaddedCells o level tailWidth widths started (front ++ cell :: rest) w).lines := by
  have hgap (w : Writer) (started : Bool) :
      w.lines ≤ (if started then w.text o [Bytes.space] else w).lines := by
    split
    · exact (Writer.staysIn_text w _).lines_le
    · exact Nat.le_refl _
  induction front generalizing widths started w with
  | nil =>
      simp only [List.nil_append, Doc.writePaddedCells, hshown, hrest, Bool.false_and,
        Bool.false_eq_true, if_false, if_true]
      exact (hgap w started).trans_lt (h level tailWidth _)
  | cons other front ih =>
      have hmore : allEmpty (front ++ cell :: rest) = false := allEmpty_eq_false (by simp) hshown
      simp only [List.cons_append, Doc.writePaddedCells, hmore, Bool.and_false,
        Bool.false_eq_true, if_false]
      split
      · exact ih _ _ _
      · refine ((hgap w started).trans ?_).trans_lt (ih _ _ _)
        exact ((Writer.staysIn_write ..).trans (Writer.staysIn_spaces ..)).lines_le

end Doc

namespace Row

/-- The row is broken wherever it is laid out, unless that is inside a group on one line. -/
def Breaks (o : LayoutOptions) (r : Row) : Prop :=
  ∀ v : Place, v.flat = false → (r.front o v).lines < (r.behind o v).lines

variable {o : LayoutOptions}

theorem breaks_line {d : Doc} (h : d.EndsLine o) : (line d).Breaks o := by
  intro v hflat
  rw [front, behind, hflat]
  exact h v.level v.trail v.writer

theorem breaks_cells {cell : Doc} (h : cell.EndsLine o) (hshown : cell.isEmpty = false)
    {rest : List Doc} (hrest : Doc.allEmpty rest = true) (cells leading : List Doc) (tail : Doc)
    (widths : List Int) :
    (Row.cells widths (.mk leading (cells ++ cell :: rest) tail)).Breaks o := by
  intro v hflat
  rw [front, behind, Doc.writeRow, hflat, if_neg Bool.false_ne_true]
  exact (h.writePaddedCells hshown hrest ..).trans_le (Writer.staysIn_write ..).lines_le

/-- What stands before a row stays in front of it. -/
theorem staysIn_front (r : Row) (v : Place) : (r.front o v).StaysIn (r.behind o v) := by
  cases r with
  | line d => exact Writer.staysIn_write ..
  | cells widths row =>
      cases row with
      | mk leading cells tail =>
          rw [front, behind, Doc.writeRow]
          refine Writer.StaysIn.trans ?_ (Writer.staysIn_write ..)
          split
          · exact ((Writer.staysIn_inStep _).writeFlatCells _ _ _ ⟨rfl, .refl _⟩).2
          · exact ((Writer.staysIn_inStep _).writePaddedCells _ _ _ _ _ ⟨rfl, .refl _⟩).2

end Row

/-- The row is not on one line of the output: what the layout writes between the beginning and the
end of the row holds the end of a line. -/
structure PlacedRow.OnLines (o : LayoutOptions) (x : PlacedRow) (v : Place)
    (text output : Bytes) : Prop where
  lf_mem : Bytes.lf ∈ text
  behind : Bytes.trimRight Writer.isBlank (x.row.front o v).out.reverse ++ text =
    Bytes.trimRight Writer.isBlank (x.row.behind o v).out.reverse
  written : Bytes.trimRight Writer.isBlank (x.row.behind o v).out.reverse <+: output

theorem PlacedRow.OnLines.mono {o : LayoutOptions} {x : PlacedRow} {v : Place}
    {text output output' : Bytes} (h : x.OnLines o v text output) (houtput : output <+: output') :
    x.OnLines o v text output' := { h with written := h.written.trans houtput }

theorem Row.Breaks.onLines {o : LayoutOptions} {x : PlacedRow} {v : Place} (h : x.row.Breaks o)
    (hflat : v.flat = false) {w : Writer} (hstays : (x.row.behind o v).StaysIn w) :
    ∃ text, x.OnLines o v text w.result := by
  obtain ⟨text, htext⟩ := Writer.suffix_dropWhile (x.row.staysIn_front (o := o) v)
  have hlines := h v hflat
  rw [Writer.lines, Writer.lines, ← Writer.count_dropWhile (x.row.front o v).out,
    ← Writer.count_dropWhile (x.row.behind o v).out, ← htext, List.count_append] at hlines
  refine ⟨text.reverse, List.mem_reverse.mpr (List.count_pos_iff.mp (by omega)), ?_, hstays.result⟩
  rw [Bytes.trimRight, Bytes.trimRight, List.reverse_reverse, List.reverse_reverse, ← htext,
    List.reverse_append]

/-! ## Documents that come to their rows -/

namespace Doc

variable {o : LayoutOptions} {level : Int} {trail : Nat} {flat : Bool} {w : Writer} {r : Row}
  {v : Place} {x : PlacedRow} {d body : Doc} {xs ys : List Doc}

/-- Where the document is laid out from the start of a line, its layout comes to the row. -/
def Keeps (o : LayoutOptions) (level : Int) (trail : Nat) (x : PlacedRow) (d : Doc) : Prop :=
  ∀ w : Writer, w.StartsLine o level →
    ∃ v, d.Reaches o ⟨level, false, trail, w⟩ x.row v ∧ x.StartsAt o v

/-- Wherever the document is laid out, its layout comes to the row: it starts a line first. -/
def KeepsAnywhere (o : LayoutOptions) (level : Int) (trail : Nat) (x : PlacedRow) (d : Doc) :
    Prop :=
  ∀ w : Writer, ∃ v, d.Reaches o ⟨level, false, trail, w⟩ x.row v ∧ x.StartsAt o v

/-- Where the document is on one line, its layout comes to the row. -/
def Includes (o : LayoutOptions) (level : Int) (x : PlacedRow) (d : Doc) : Prop :=
  d.flat.forced = false →
    ∀ trail w, ∃ v, d.Reaches o ⟨level, true, trail, w⟩ x.row v ∧ x.StartsAt o v

/-- A document is a row itself. -/
theorem keeps_self (o : LayoutOptions) (level : Int) (d : Doc) :
    d.Keeps o level 0 ⟨level, .line d⟩ :=
  fun w hw => ⟨⟨level, false, 0, w⟩, .self d _, rfl, fun _ => ⟨rfl, hw⟩, nofun⟩

theorem KeepsAnywhere.keeps (h : d.KeepsAnywhere o level trail x) : d.Keeps o level trail x :=
  fun w _ => h w

/-! ### Parts -/

theorem Keeps.head (h : d.Keeps o level (trailAfter ys trail) x) :
    (concat (d :: ys)).Keeps o level trail x :=
  fun w hw => (h w hw).imp fun _ h => ⟨.head h.1, h.2⟩

theorem Keeps.append (h : (concat xs).Keeps o level (trailAfter ys trail) x) :
    (concat (xs ++ ys)).Keeps o level trail x :=
  fun w hw => (h w hw).imp fun _ h => ⟨.initial h.1, h.2⟩

/-- The row stands behind a break that is taken. -/
theorem Keeps.after_break {brk : Doc}
    (hbrk : ∀ trail w, brk.write o level false trail w = w.newline o level)
    (h : (concat ys).Keeps o level trail x) : (concat (brk :: ys)).KeepsAnywhere o level trail x := by
  intro w
  obtain ⟨v, hreach, hstarts⟩ := h _ (w.startsLine_newline level)
  refine ⟨v, @Reaches.final o [brk] ys level false trail w x.row v ?_, hstarts⟩
  rwa [writeAll, hbrk]

namespace KeepsAnywhere

theorem head (h : d.KeepsAnywhere o level (trailAfter ys trail) x) :
    (concat (d :: ys)).KeepsAnywhere o level trail x :=
  fun w => (h w).imp fun _ h => ⟨.head h.1, h.2⟩

theorem append_left (h : (concat xs).KeepsAnywhere o level (trailAfter ys trail) x) :
    (concat (xs ++ ys)).KeepsAnywhere o level trail x :=
  fun w => (h w).imp fun _ h => ⟨.initial h.1, h.2⟩

theorem append_right (h : (concat ys).KeepsAnywhere o level trail x) (xs : List Doc) :
    (concat (xs ++ ys)).KeepsAnywhere o level trail x :=
  fun _ => (h _).imp fun _ h => ⟨.final h.1, h.2⟩

theorem cons (h : (concat ys).KeepsAnywhere o level trail x) (d : Doc) :
    (concat (d :: ys)).KeepsAnywhere o level trail x := h.append_right [d]

/-- Nothing before the row matters. -/
theorem drop (n : Nat) (h : (concat (xs.drop n)).KeepsAnywhere o level trail x) :
    (concat xs).KeepsAnywhere o level trail x := by
  have happend := h.append_right (xs.take n)
  rwa [List.take_append_drop] at happend

end KeepsAnywhere

theorem KeepsAnywhere.indent {levels : Int} (h : body.KeepsAnywhere o (level + levels) trail x) :
    (Doc.indent levels body).KeepsAnywhere o level trail x :=
  fun w => (h w).imp fun _ h => ⟨.indent h.1, h.2⟩

/-! ### Groups -/

/-- A group is on one line with all it includes, or broken. -/
theorem KeepsAnywhere.group (hflat : body.Includes o level x)
    (hbroken : body.KeepsAnywhere o level trail x) :
    (Doc.group body).KeepsAnywhere o level trail x := by
  intro w
  cases hfits : (false || (!body.flat.forced &&
      decide (w.column o + body.flat.width + trail ≤ o.width))) with
  | false =>
      obtain ⟨v, hreach, hstarts⟩ := hbroken w
      exact ⟨v, .group (by rwa [hfits]), hstarts⟩
  | true =>
      have hforced : body.flat.forced = false := by
        simp only [Bool.false_or, Bool.and_eq_true, Bool.not_eq_true'] at hfits
        exact hfits.1
      obtain ⟨v, hreach, hstarts⟩ := hflat hforced trail w
      exact ⟨v, .group (by rwa [hfits]), hstarts⟩

theorem Includes.append_left (h : (Doc.concat xs).Includes o level x) (ys : List Doc) :
    (Doc.concat (xs ++ ys)).Includes o level x := by
  intro hforced trail w
  have hparts : (flatAll (xs ++ ys)).forced = false := hforced
  rw [forced_flatAll_append, Bool.or_eq_false_iff] at hparts
  exact (h hparts.1 _ w).imp fun _ h => ⟨.initial h.1, h.2⟩

theorem Includes.append_right (h : (Doc.concat ys).Includes o level x) (xs : List Doc) :
    (Doc.concat (xs ++ ys)).Includes o level x := by
  intro hforced trail w
  have hparts : (flatAll (xs ++ ys)).forced = false := hforced
  rw [forced_flatAll_append, Bool.or_eq_false_iff] at hparts
  exact (h hparts.2 _ _).imp fun _ h => ⟨.final h.1, h.2⟩

theorem Includes.concat (h : d.Includes o level x) (hd : d ∈ xs) :
    (Doc.concat xs).Includes o level x := by
  obtain ⟨front, back, rfl⟩ := List.append_of_mem hd
  have hhere : (Doc.concat (d :: back)).Includes o level x := by
    intro hforced trail w
    have hparts : (flatAll (d :: back)).forced = false := hforced
    rw [flatAll, Flat.forced_append, Bool.or_eq_false_iff] at hparts
    exact (h hparts.1 _ w).imp fun _ h => ⟨.head h.1, h.2⟩
  exact hhere.append_right front

theorem Includes.indent {levels : Int} (h : body.Includes o (level + levels) x) :
    (Doc.indent levels body).Includes o level x :=
  fun hforced trail w => (h hforced trail w).imp fun _ h => ⟨.indent h.1, h.2⟩

theorem Includes.group (h : body.Includes o level x) : (Doc.group body).Includes o level x :=
  fun hforced trail w => (h hforced trail w).imp fun _ h => ⟨.group h.1, h.2⟩

/-- The body of brackets, one level further. -/
theorem Includes.wrap (h : body.Includes o (level + 1) x) (opening closing : Bytes) :
    (Doc.wrap opening body closing).Includes o level x := by
  have hinner : (Doc.concat [.softLine, body]).Includes o (level + 1) x := h.concat (by simp)
  exact (hinner.indent.concat (by simp)).group

/-- Between two breaks the row starts a line, unless everything is on one. -/
theorem KeepsAnywhere.between {brk : Doc} (hflat : body.Includes o (level + 1) x)
    (hbroken : body.Keeps o (level + 1) 0 x)
    (hbrk : ∀ trail w, brk.write o (level + 1) false trail w = w.newline o (level + 1))
    (hbehind : ∀ ds, trailAfter (brk :: ds) trail = 0) (opening closing : Bytes) :
    (Doc.group (.concat [.text opening, .indent 1 (.concat [brk, body]), brk,
      .text closing])).KeepsAnywhere o level trail x := by
  have hinner : (Doc.concat [brk, body]).Includes o (level + 1) x := hflat.concat (by simp)
  have hbody : (Doc.concat [body]).Keeps o (level + 1) 0 x := .head hbroken
  have hindent : (Doc.indent 1 (.concat [brk, body])).KeepsAnywhere o level
      (trailAfter [brk, .text closing] trail) x := by
    rw [hbehind]
    exact (hbody.after_break hbrk).indent
  exact .group (hinner.indent.concat (by simp)) (hindent.head.cons _)

theorem KeepsAnywhere.bracket (opening closing : Bytes) (hflat : body.Includes o (level + 1) x)
    (hbroken : body.Keeps o (level + 1) 0 x) :
    (Doc.bracket opening body closing).KeepsAnywhere o level trail x :=
  .between hflat hbroken (fun _ _ => rfl) (fun _ => rfl) opening closing

theorem KeepsAnywhere.wrap (opening closing : Bytes) (hflat : body.Includes o (level + 1) x)
    (hbroken : body.Keeps o (level + 1) 0 x) :
    (Doc.wrap opening body closing).KeepsAnywhere o level trail x :=
  .between hflat hbroken (fun _ _ => rfl) (fun _ => rfl) opening closing

/-! ### Tables -/

section

variable {rows : List TableRow} {row : TableRow} {widths : List Int} {sep : Doc}

theorem Keeps.table (hsep : sep = .line ∨ sep = .hardLine) (hrow : row ∈ rows) :
    (Doc.table rows widths sep).Keeps o level trail ⟨level, .cells widths row⟩ := by
  intro w hw
  induction rows generalizing w with
  | nil => cases hrow
  | cons other rest ih =>
      rcases List.mem_cons.mp hrow with rfl | hrow
      · exact ⟨⟨level, false, 0, w⟩, .row, rfl, fun _ => ⟨rfl, hw⟩, nofun⟩
      · have hstart : (sep.write o level false 0
            (writeRow o level false widths other w)).StartsLine o level := by
          rcases hsep with rfl | rfl <;> exact Writer.startsLine_newline _ level
        obtain ⟨v, hreach, hstarts⟩ := ih hrow _ hstart
        exact ⟨v, .next hreach (List.ne_nil_of_mem hrow), hstarts⟩

theorem forced_flatRow_of_mem {before : Flat} {first : Bool} (hrow : row ∈ rows)
    (h : (flatRows before first rows).forced = false) : (flatRow row).forced = false := by
  induction rows generalizing first with
  | nil => cases hrow
  | cons other rest ih =>
      simp only [flatRows, Flat.forced_append, Bool.or_eq_false_iff] at h
      rcases List.mem_cons.mp hrow with rfl | hrow
      · exact h.1.2
      · exact ih hrow h.2

theorem Includes.table (hrow : row ∈ rows) :
    (Doc.table rows widths sep).Includes o level ⟨level, .cells widths row⟩ := by
  intro hforced trail w
  have hunforced := forced_flatRow_of_mem hrow hforced
  clear hforced
  induction rows generalizing w with
  | nil => cases hrow
  | cons other rest ih =>
      rcases List.mem_cons.mp hrow with rfl | hrow
      · exact ⟨⟨level, true, 0, w⟩, .row, rfl, nofun, fun _ => hunforced⟩
      · obtain ⟨v, hreach, hstarts⟩ := ih hrow _
        exact ⟨v, .next hreach (List.ne_nil_of_mem hrow), hstarts⟩

end

end Doc

/-! ## Blocks -/

namespace Block

variable {o : LayoutOptions} {level : Int} {x : PlacedRow} {b : Block} {d : Doc}

/-- The layout of one of the lines of the block comes to the row. -/
def Keeps (o : LayoutOptions) (level : Int) (x : PlacedRow) (b : Block) : Prop :=
  ∃ d, some d ∈ b.lines ∧ d.Keeps o level 0 x

theorem Keeps.add (h : b.Keeps o level x) (d : Doc) : (b.add d).Keeps o level x := by
  obtain ⟨e, he, hkeeps⟩ := h
  exact ⟨e, List.mem_cons_of_mem _ he, hkeeps⟩

theorem Keeps.blank (h : b.Keeps o level x) : b.blank.Keeps o level x := by
  obtain ⟨e, he, hkeeps⟩ := h
  refine ⟨e, ?_, hkeeps⟩
  rw [Block.blank]
  split
  · exact he
  · exact he
  · exact List.mem_cons_of_mem _ he

theorem Keeps.comments (h : b.Keeps o level x) (cs : List Comment) :
    (b.comments cs).Keeps o level x := by
  rw [Block.comments]
  induction cs generalizing b with
  | nil => exact h
  | cons c cs ih =>
      refine ih (Keeps.add ?_ _)
      split
      · exact h.blank
      · exact h

theorem Keeps.leading (h : b.Keeps o level x) (t : RowTrivia) :
    (b.leading t).Keeps o level x := by
  rw [Block.leading]
  split
  · exact (h.comments _).blank
  · exact h.comments _

theorem Keeps.row (h : b.Keeps o level x) (t : RowTrivia) (body : Doc) :
    (b.row t body).Keeps o level x := (h.leading t).add _

theorem keeps_add (h : d.Keeps o level 0 x) : (b.add d).Keeps o level x :=
  ⟨d, List.mem_cons_self, h⟩

/-- No comment behind a row is on its way. -/
theorem trailAfter_inline (comment : Bytes) : Doc.trailAfter [Doc.inline comment] 0 = 0 := by
  rw [Doc.inline]
  split <;> rfl

theorem keeps_row (h : d.Keeps o level 0 x) (t : RowTrivia) : (b.row t d).Keeps o level x :=
  keeps_add (.head (by rwa [trailAfter_inline]))

theorem Keeps.doc (h : b.Keeps o level x) : b.doc.Keeps o level 0 x := by
  obtain ⟨d, hd, hkeeps⟩ := h
  have hmem : d ∈ (b.lines.dropWhile Option.isNone).reverse.map fun line => line.getD .empty := by
    refine List.mem_map.mpr ⟨some d, List.mem_reverse.mpr ?_, rfl⟩
    rw [← List.takeWhile_append_dropWhile (p := Option.isNone) (l := b.lines)] at hd
    refine (List.mem_append.mp hd).resolve_left fun htake => ?_
    cases List.mem_takeWhile_imp htake
  obtain ⟨front, back, hsplit, hfront, hback⟩ := Doc.exists_intersperse .hardLine hmem
  have htrail : Doc.trailAfter back 0 = 0 := by rcases hback with rfl | ⟨after, rfl⟩ <;> rfl
  have hhere : (Doc.concat (d :: back)).Keeps o level 0 x := .head (by rwa [htrail])
  rw [Block.doc, hsplit]
  rcases hfront with rfl | ⟨before, rfl⟩
  · exact hhere
  · rw [List.append_assoc]
    have hbehind : (Doc.concat (.hardLine :: d :: back)).KeepsAnywhere o level 0 x :=
      hhere.after_break fun _ _ => rfl
    exact (hbehind.append_right before).keeps

/-- A block that is indented starts a line of its own. -/
theorem Keeps.nest (h : b.Keeps o (level + 1) x) : b.nest.KeepsAnywhere o level 0 x := by
  have hlines : b.lines.isEmpty = false := by
    obtain ⟨d, hd, -⟩ := h
    cases hb : b.lines with
    | nil => rw [hb] at hd; cases hd
    | cons line rest => rfl
  rw [Block.nest, hlines, if_neg Bool.false_ne_true]
  have hdoc : (Doc.concat [b.doc]).Keeps o (level + 1) 0 x := .head h.doc
  exact .indent (hdoc.after_break fun _ _ => rfl)

end Block

end VhdlStyle
