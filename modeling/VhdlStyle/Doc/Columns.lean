import VhdlStyle.Doc.Width

/-! # Aligned columns

The columns of a run of rows are measured over all rows before the rows become a table. -/

namespace VhdlStyle.Columns

/-- The larger of two widths, column by column; the longer list goes on. -/
def widest : List Nat → List Nat → List Nat
  | [], bs => bs
  | as, [] => as
  | a :: as, b :: bs => max a b :: widest as bs

/-- The width a cell contributes to its column. -/
def cellWidth (cell : Doc) : Nat := if cell.isEmpty then 0 else cell.flat.width

/-- The widths of the columns of rows of cells. -/
def measure (rows : List (List Doc)) : List Nat :=
  rows.foldl (fun widths row => widest widths (row.map cellWidth)) []

/-- The widths of the columns that are padded, zero for the others; columns beyond `pad` are
padded. -/
def mask : List Nat → List Bool → List Nat
  | [], _ => []
  | w :: widths, [] => w :: mask widths []
  | w :: widths, p :: pad => (if p then w else 0) :: mask widths pad

/-- A table of rows; unless `enabled`, nothing is padded. -/
def table (rows : List TableRow) (sep : Doc) (enabled : Bool) (pad : List Bool) : Doc :=
  if !enabled then .table rows [] sep
  else .table rows ((mask (measure (rows.map TableRow.cells)) pad).map Int.ofNat) sep

/-- The items cut into runs: an item begins a new one if `starts` holds of its predecessor and
it. -/
def runs {α : Type} (starts : α → α → Bool) : List α → List (List α)
  | [] => []
  | item :: rest =>
    match runs starts rest with
    | (next :: run) :: others =>
      if starts item next then [item] :: (next :: run) :: others
      else (item :: next :: run) :: others
    | others => [item] :: others

end VhdlStyle.Columns
