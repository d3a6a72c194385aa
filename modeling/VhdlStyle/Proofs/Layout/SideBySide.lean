import VhdlStyle.Doc.Layout

/-! # Layouts side by side

While a document is written the writer is asked for nothing but its column. Two writers that stand
at the same column, and that stay related whenever both take the same step, are therefore related
after any document, although their options may differ in all but the width. -/

namespace VhdlStyle

/-- Writers in the relation stand at the same column, and every step keeps them related. -/
structure Writer.InStep (o o' : LayoutOptions) (R : Writer → Writer → Prop) : Prop where
  width : o.width = o'.width
  column {w w' : Writer} : R w w' → w.column o = w'.column o'
  text {w w' : Writer} (s : Bytes) : R w w' → R (w.text o s) (w'.text o' s)
  newline {w w' : Writer} (indent : Int) : R w w' → R (w.newline o indent) (w'.newline o' indent)
  spaces {w w' : Writer} (n : Int) : R w w' → R (w.spaces o n) (w'.spaces o' n)

namespace Writer.InStep

open Doc

variable {o o' : LayoutOptions} {R : Writer → Writer → Prop}

/-- The space between two cells, where there is one. -/
theorem space (h : InStep o o' R) (between : Bool) {w w' : Writer} (hw : R w w') :
    R (if between then w.text o [Bytes.space] else w)
      (if between then w'.text o' [Bytes.space] else w') := by
  cases between with
  | true => exact h.text [Bytes.space] hw
  | false => exact hw

mutual

/-- A document keeps writers related. -/
theorem write (h : InStep o o' R) (indent : Int) (flat : Bool) (trail : Nat) (d : Doc) :
    ∀ {w w'}, R w w' →
      R (Doc.write o indent flat trail d w) (Doc.write o' indent flat trail d w') := by
  intro w w' hw
  cases d with
  | text s => exact h.text s hw
  | line =>
      cases flat with
      | true => exact h.text [Bytes.space] hw
      | false => exact h.newline indent hw
  | softLine =>
      cases flat with
      | true => exact hw
      | false => exact h.newline indent hw
  | hardLine => exact h.newline indent hw
  | breakParent => exact hw
  | indent levels body => exact h.write (indent + levels) flat trail body hw
  | group body =>
      rw [Doc.write, Doc.write, h.column hw, h.width]
      exact h.write indent _ trail body hw
  | concat parts => exact h.writeAll indent flat trail parts hw
  | table rows widths sep =>
      exact h.writeRows indent flat widths (h.write indent flat 0 sep) true rows hw

theorem writeAll (h : InStep o o' R) (indent : Int) (flat : Bool) (trail : Nat) (ds : List Doc) :
    ∀ {w w'}, R w w' →
      R (Doc.writeAll o indent flat trail ds w) (Doc.writeAll o' indent flat trail ds w') := by
  intro w w' hw
  cases ds with
  | nil => exact hw
  | cons d rest => exact h.writeAll indent flat trail rest (h.write indent flat _ d hw)

theorem writeRows (h : InStep o o' R) (indent : Int) (flat : Bool) (widths : List Int)
    {writeSep writeSep' : Writer → Writer}
    (hsep : ∀ {w w'}, R w w' → R (writeSep w) (writeSep' w')) (first : Bool)
    (rows : List TableRow) :
    ∀ {w w'}, R w w' → R (Doc.writeRows o indent flat widths writeSep first rows w)
      (Doc.writeRows o' indent flat widths writeSep' first rows w') := by
  intro w w' hw
  cases rows with
  | nil => exact hw
  | cons row rest =>
      refine h.writeRows indent flat widths hsep false rest (h.writeRow indent flat widths row ?_)
      cases first with
      | true => exact hw
      | false => exact hsep hw

theorem writeRow (h : InStep o o' R) (indent : Int) (flat : Bool) (widths : List Int)
    (row : TableRow) :
    ∀ {w w'}, R w w' →
      R (Doc.writeRow o indent flat widths row w) (Doc.writeRow o' indent flat widths row w') := by
  intro w w' hw
  cases row with
  | mk leading cells tail =>
      have hleading := h.writeLeading indent flat leading hw
      refine h.write indent flat 0 tail ?_
      cases flat with
      | true => exact h.writeFlatCells indent true cells hleading
      | false => exact h.writePaddedCells indent _ widths false cells hleading

theorem writeLeading (h : InStep o o' R) (indent : Int) (flat : Bool) (ds : List Doc) :
    ∀ {w w'}, R w w' →
      R (Doc.writeLeading o indent flat ds w) (Doc.writeLeading o' indent flat ds w') := by
  intro w w' hw
  cases ds with
  | nil => exact hw
  | cons d rest =>
      exact h.writeLeading indent flat rest (h.newline indent (h.write indent flat 0 d hw))

theorem writeFlatCells (h : InStep o o' R) (indent : Int) (first : Bool) (cells : List Doc) :
    ∀ {w w'}, R w w' → R (Doc.writeFlatCells o indent first cells w)
      (Doc.writeFlatCells o' indent first cells w') := by
  intro w w' hw
  cases cells with
  | nil => exact hw
  | cons cell rest =>
      rw [Doc.writeFlatCells, Doc.writeFlatCells]
      split
      · exact h.writeFlatCells indent first rest hw
      · refine h.writeFlatCells indent false rest (h.write indent true 0 cell ?_)
        cases first with
        | true => exact hw
        | false => exact h.text [Bytes.space] hw

theorem writePaddedCells (h : InStep o o' R) (indent : Int) (tailWidth : Nat)
    (widths : List Int) (started : Bool) (cells : List Doc) :
    ∀ {w w'}, R w w' → R (Doc.writePaddedCells o indent tailWidth widths started cells w)
      (Doc.writePaddedCells o' indent tailWidth widths started cells w') := by
  intro w w' hw
  cases cells with
  | nil => exact hw
  | cons cell rest =>
      have hspace := h.space started hw
      rw [Doc.writePaddedCells, Doc.writePaddedCells]
      split
      · exact hw
      split
      · exact h.writePaddedCells indent tailWidth widths.tail started rest hw
      dsimp only
      split
      · exact h.write indent false tailWidth cell hspace
      · exact h.writePaddedCells indent tailWidth widths.tail true rest
          (h.spaces _ (h.write indent true 0 cell hspace))

end

end Writer.InStep

end VhdlStyle
