import VhdlStyle.Text.Cells
import VhdlStyle.Doc.Basic

/-! # Widths of documents

The width of a document on one line, and the width of its beginning up to the first place where a
line may break. -/

namespace VhdlStyle.Doc

/-- The cells a document takes on one line, and whether something in it forces a break. -/
structure Flat where
  width : Nat := 0
  forced : Bool := false
  deriving DecidableEq, Inhabited

/-- One after the other. -/
def Flat.append (a b : Flat) : Flat := ⟨a.width + b.width, a.forced || b.forced⟩

instance : Append Flat := ⟨Flat.append⟩

@[simp]
theorem Flat.width_append (a b : Flat) : (a ++ b).width = a.width + b.width := rfl

@[simp]
theorem Flat.forced_append (a b : Flat) : (a ++ b).forced = (a.forced || b.forced) := rfl

mutual

/-- The width on one line. Line feeds in texts, hard lines, break marks and lines above table rows
force a break. -/
def flat : Doc → Flat
  | .text s => if s.contains Bytes.lf then ⟨0, true⟩ else ⟨Cells.width s, false⟩
  | .line => ⟨1, false⟩
  | .softLine => ⟨0, false⟩
  | .hardLine => ⟨0, true⟩
  | .breakParent => ⟨0, true⟩
  | .indent _ body => flat body
  | .group body => flat body
  | .concat parts => flatAll parts
  | .table rows _ sep => flatRows (flat sep) true rows

/-- The width of documents one after the other. -/
def flatAll : List Doc → Flat
  | [] => {}
  | d :: rest => flat d ++ flatAll rest

/-- The width of table rows; `first` says that no separator stands before them. -/
def flatRows (sep : Flat) (first : Bool) : List TableRow → Flat
  | [] => {}
  | row :: rest => (if first then {} else sep) ++ flatRow row ++ flatRows sep false rest

/-- The width of a table row. -/
def flatRow : TableRow → Flat
  | .mk leading cells tail => ⟨0, !leading.isEmpty⟩ ++ flatCells true cells ++ flat tail

/-- The width of cells; a space stands before each but the first that is not empty. -/
def flatCells (first : Bool) : List Doc → Flat
  | [] => {}
  | cell :: rest =>
    if cell.isEmpty then flatCells first rest
    else ⟨if first then 0 else 1, false⟩ ++ flat cell ++ flatCells false rest

end

/-- The text before its first line feed. -/
def firstLine (s : Bytes) : Bytes := s.takeWhile (· != Bytes.lf)

mutual

/-- The width up to the first place where a line may break, and whether there is one. -/
def lead : Doc → Nat × Bool
  | .text s => (Cells.width (firstLine s), s.contains Bytes.lf)
  | .line | .softLine | .hardLine | .breakParent | .table .. => (0, true)
  | .indent _ body => lead body
  | .group body => lead body
  | .concat parts => leadAll parts

/-- The width of documents one after the other up to the first place where a line may break. -/
def leadAll : List Doc → Nat × Bool
  | [] => (0, false)
  | d :: rest =>
    match lead d with
    | (w, true) => (w, true)
    | (w, false) =>
      let (v, stop) := leadAll rest
      (w + v, stop)

end

/-- The width of what follows on the line: `rest` up to its first place to break, and `outer` if
it has none. -/
def trailAfter (rest : List Doc) (outer : Nat) : Nat :=
  match leadAll rest with
  | (w, true) => w
  | (w, false) => w + outer

end VhdlStyle.Doc
