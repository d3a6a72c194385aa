import VhdlStyle.Doc.Width

/-! # Layout

A document as text. A group that fits on its line together with the text that follows it is laid
out flat; every other group is broken. Text that cannot be broken is written as it is. -/

namespace VhdlStyle

/-- How documents are laid out. -/
structure LayoutOptions where
  width : Int := 100
  indentSize : Int := 2
  tabs : Bool := false
  newline : Bytes := "\n"
  deriving DecidableEq, Inhabited

/-- Sizes below one and an empty newline stand for the defaults. -/
def LayoutOptions.normalize (o : LayoutOptions) : LayoutOptions :=
  { o with
    width := if o.width ≤ 0 then 100 else o.width
    indentSize := if o.indentSize ≤ 0 then 2 else o.indentSize
    newline := o.newline.orElse "\n" }

/-- The text written so far, last byte first. The indentation of a line is written with its first
text, so blank lines stay empty. -/
structure Writer where
  out : Bytes := []
  col : Int := 0
  pending : Int := 0
  atLineStart : Bool := true
  deriving Inhabited

namespace Writer

/-- The column at which the next text starts. -/
def column (w : Writer) (o : LayoutOptions) : Int :=
  if w.atLineStart then w.pending * o.indentSize else w.col

/-- Writes bytes without looking at them. -/
def push (w : Writer) (s : Bytes) : Writer := { w with out := s.reverse ++ w.out }

/-- Writes the indentation that is due. -/
def startLine (w : Writer) (o : LayoutOptions) : Writer :=
  if !w.atLineStart then w
  else
    let blanks := if o.tabs then List.replicate w.pending.toNat Bytes.tab
      else List.replicate (w.pending * o.indentSize).toNat Bytes.space
    { w.push blanks with col := w.pending * o.indentSize, atLineStart := false }

/-- A blank at the end of a line. -/
def isBlank (b : UInt8) : Bool := b == Bytes.space || b == Bytes.tab

/-- Ends the line without its trailing blanks; the next one is indented by `indent` levels. -/
def newline (w : Writer) (o : LayoutOptions) (indent : Int) : Writer :=
  { out := o.newline.reverse ++ w.out.dropWhile isBlank, col := 0, pending := indent,
    atLineStart := true }

/-- Writes the lines of a text after its first; they are not indented. -/
def textLines (o : LayoutOptions) (w : Writer) (lines : List Bytes) : Writer :=
  lines.foldl (fun w line =>
    { (w.newline o 0).push line with col := Cells.width line, atLineStart := false }) w

/-- Writes a text. -/
def text (w : Writer) (o : LayoutOptions) (s : Bytes) : Writer :=
  match Bytes.split Bytes.lf s with
  | [] => w
  | first :: rest =>
    let w := if first.isEmpty then w
      else
        let w := w.startLine o
        { w.push first with col := w.col + Cells.width first }
    textLines o w rest

/-- Writes `n` spaces, none if `n` is negative. -/
def spaces (w : Writer) (o : LayoutOptions) (n : Int) : Writer :=
  if n ≤ 0 then w
  else
    let w := w.startLine o
    { w.push (List.replicate n.toNat Bytes.space) with col := w.col + n }

/-- The text written, without blanks at its end. -/
def result (w : Writer) : Bytes := (w.out.dropWhile isBlank).reverse

end Writer

namespace Doc

mutual

/-- Writes a document at an indentation level; `trail` is the width of what follows on its line. -/
def write (o : LayoutOptions) (indent : Int) (flatMode : Bool) (trail : Nat) :
    Doc → Writer → Writer
  | .text s, w => w.text o s
  | .concat parts, w => writeAll o indent flatMode trail parts w
  | .line, w => if flatMode then w.text o [Bytes.space] else w.newline o indent
  | .softLine, w => if flatMode then w else w.newline o indent
  | .hardLine, w => w.newline o indent
  | .breakParent, w => w
  | .indent levels body, w => write o (indent + levels) flatMode trail body w
  | .group body, w =>
    let f := flat body
    let fits := flatMode || (!f.forced && w.column o + f.width + trail ≤ o.width)
    write o indent fits trail body w
  | .table rows widths sep, w =>
    writeRows o indent flatMode widths (write o indent flatMode 0 sep) true rows w

/-- Writes documents one after the other. -/
def writeAll (o : LayoutOptions) (indent : Int) (flatMode : Bool) (trail : Nat) :
    List Doc → Writer → Writer
  | [], w => w
  | d :: rest, w =>
    writeAll o indent flatMode trail rest
      (write o indent flatMode (trailAfter rest trail) d w)

/-- Writes table rows; `writeSep` writes the separator, and `first` says that none stands before
them. -/
def writeRows (o : LayoutOptions) (indent : Int) (flatMode : Bool) (widths : List Int)
    (writeSep : Writer → Writer) (first : Bool) : List TableRow → Writer → Writer
  | [], w => w
  | row :: rest, w =>
    let w := if first then w else writeSep w
    writeRows o indent flatMode widths writeSep false rest
      (writeRow o indent flatMode widths row w)

/-- Writes a table row. -/
def writeRow (o : LayoutOptions) (indent : Int) (flatMode : Bool) (widths : List Int) :
    TableRow → Writer → Writer
  | .mk leading cells tail, w =>
    let w := writeLeading o indent flatMode leading w
    let w := if flatMode then writeFlatCells o indent true cells w
      else writePaddedCells o indent (lead tail).1 widths false cells w
    write o indent flatMode 0 tail w

/-- Writes documents on lines of their own. -/
def writeLeading (o : LayoutOptions) (indent : Int) (flatMode : Bool) :
    List Doc → Writer → Writer
  | [], w => w
  | d :: rest, w =>
    writeLeading o indent flatMode rest ((write o indent flatMode 0 d w).newline o indent)

/-- Writes cells on one line with single spaces. -/
def writeFlatCells (o : LayoutOptions) (indent : Int) (first : Bool) :
    List Doc → Writer → Writer
  | [], w => w
  | cell :: rest, w =>
    if cell.isEmpty then writeFlatCells o indent first rest w
    else
      let w := if first then w else w.text o [Bytes.space]
      writeFlatCells o indent false rest (write o indent true 0 cell w)

/-- Writes cells padded to their columns. The last cell that is not empty may break, together with
a tail of width `tailWidth`; no padding follows it. Empty cells of unpadded columns vanish. -/
def writePaddedCells (o : LayoutOptions) (indent : Int) (tailWidth : Nat) (widths : List Int)
    (started : Bool) : List Doc → Writer → Writer
  | [], w => w
  | cell :: rest, w =>
    let width := widths.headD 0
    if cell.isEmpty && allEmpty rest then w
    else if cell.isEmpty && width == 0 then
      writePaddedCells o indent tailWidth widths.tail started rest w
    else
      let w := if started then w.text o [Bytes.space] else w
      if allEmpty rest then write o indent false tailWidth cell w
      else
        let w := write o indent true 0 cell w
        writePaddedCells o indent tailWidth widths.tail true rest
          (w.spaces o (width - (flat cell).width))

end

/-- The document as text. -/
def render (d : Doc) (o : LayoutOptions) : Bytes :=
  let o := o.normalize
  (write o 0 false 0 d {}).result

/-- The document as the text of a file: a text that is not empty ends with a line terminator. -/
def page (d : Doc) (o : LayoutOptions) : Bytes :=
  let text := d.render o
  if text.isEmpty then [] else text ++ o.newline

end Doc

end VhdlStyle
