import Mathlib.Algebra.GroupWithZero.Nat
import Mathlib.Data.List.Forall2
import VhdlStyle.Doc.Columns
import VhdlStyle.Proofs.Layout.OneLine

/-! # Aligned columns

The rows of a broken table are written one by one, and each row on its own decides where a space
stands, which cells it skips and what it pads. Here the run is kept with the places of its cells:
what stands before a cell on its line takes the measured widths of the columns before it, whatever
the row has in them. -/

namespace VhdlStyle

/-! ## Edges of columns -/

namespace Columns

/-- The cells from the start of a row to a column: the columns before it that have a width, each
with a space after it. -/
def edge (widths : List Nat) (c : Nat) : Nat :=
  (((widths.take c).filter (0 < ·)).map (· + 1)).sum

@[simp]
theorem edge_zero (widths : List Nat) : edge widths 0 = 0 := by
  simp [edge]

theorem edge_succ (widths : List Nat) (c : Nat) :
    edge widths (c + 1) =
      edge widths c + if 0 < widths.getD c 0 then widths.getD c 0 + 1 else 0 := by
  rw [edge, edge, List.take_add_one, List.getD_eq_getElem?_getD]
  cases widths[c]? with
  | none => simp
  | some width =>
      by_cases hwidth : 0 < width
      · simp [hwidth]
      · simp [hwidth]

theorem edge_succ_of_pos {widths : List Nat} {c : Nat} (h : 0 < widths.getD c 0) :
    edge widths (c + 1) = edge widths c + widths.getD c 0 + 1 := by
  rw [edge_succ, if_pos h, Nat.add_assoc]

theorem edge_mono (widths : List Nat) {c d : Nat} (h : c ≤ d) : edge widths c ≤ edge widths d := by
  induction d, h using Nat.le_induction with
  | base => exact le_rfl
  | succ d hle ih =>
      rw [edge_succ]
      omega

/-! ### Measured widths -/

theorem getD_widest (as bs : List Nat) (c : Nat) :
    (widest as bs).getD c 0 = max (as.getD c 0) (bs.getD c 0) := by
  induction as generalizing bs c with
  | nil => simp [widest]
  | cons a as ih =>
      cases bs with
      | nil => simp [widest]
      | cons b bs =>
          cases c with
          | zero => rfl
          | succ c => simpa [widest] using ih bs c

theorem mask_nil (widths : List Nat) : mask widths [] = widths := by
  induction widths with
  | nil => rfl
  | cons w widths ih => rw [mask, ih]

/-- Measuring further rows makes no column narrower. -/
theorem getD_le_foldl_widest (rows : List (List Doc)) (widths : List Nat) (c : Nat) :
    widths.getD c 0 ≤
      (rows.foldl (fun widths row => widest widths (row.map cellWidth)) widths).getD c 0 := by
  induction rows generalizing widths with
  | nil => exact le_rfl
  | cons row rows ih =>
      have hrow : widths.getD c 0 ≤ (widest widths (row.map cellWidth)).getD c 0 := by
        rw [getD_widest]
        exact le_max_left _ _
      exact hrow.trans (ih _)

/-- No cell is wider than its column. -/
theorem cellWidth_le_measure {rows : List (List Doc)} {cells : List Doc} (hrow : cells ∈ rows)
    {cell : Doc} {c : Nat} (hcell : (cell, c) ∈ cells.zipIdx) :
    cellWidth cell ≤ (measure rows).getD c 0 := by
  obtain ⟨before, after, rfl⟩ := List.append_of_mem hrow
  have hget : cells[c]? = some cell := List.mk_mem_zipIdx_iff_getElem?.mp hcell
  have hwidth : (cells.map cellWidth).getD c 0 = cellWidth cell := by
    simp [List.getD_eq_getElem?_getD, hget]
  rw [measure, List.foldl_append, List.foldl_cons, ← hwidth]
  refine le_trans ?_ (getD_le_foldl_widest after _ c)
  rw [getD_widest]
  exact le_max_right _ _

end Columns

namespace Doc

mutual

/-- What shows nothing takes no cells. -/
theorem flat_of_isEmpty {d : Doc} (h : d.isEmpty = true) : d.flat = {} := by
  cases d with
  | text s =>
      obtain rfl : s = [] := by simpa [isEmpty] using h
      rfl
  | concat parts => exact flatAll_of_allEmpty h
  | indent levels body => exact flat_of_isEmpty (d := body) h
  | group body => exact flat_of_isEmpty (d := body) h
  | line => cases h
  | softLine => cases h
  | hardLine => cases h
  | breakParent => cases h
  | table rows widths sep => cases h

theorem flatAll_of_allEmpty {ds : List Doc} (h : allEmpty ds = true) : flatAll ds = {} := by
  cases ds with
  | nil => rfl
  | cons d rest =>
      rw [allEmpty, Bool.and_eq_true] at h
      rw [flatAll, flat_of_isEmpty h.1, flatAll_of_allEmpty h.2]
      rfl

end

end Doc

/-! ## Lines of padded cells -/

/-- What a column takes on the line of a row: the cell, filled up to the width of the column, and a
space. A column without a width takes nothing. -/
def Columns.slot (width : Nat) (cell : Doc) : Stretch :=
  if width = 0 then .empty
  else cell.stretch ++ .blanks (width - cell.flat.width) ++ .gap true

/-- What stands on the line of a row before a column. -/
def Columns.front (widths : List Nat) (cells : List Doc) : Nat → Stretch
  | 0 => .empty
  | c + 1 => front widths cells c ++ slot (widths.getD c 0) (cells.getD c .empty)

/-- The columns have room for the cells of a row: no cell forces a break or is wider than its
column, and a cell that shows something has a width. -/
structure Columns.Covers (widths : List Nat) (cells : List Doc) : Prop where
  unforced : ∀ c, (cells.getD c .empty).flat.forced = false
  width_le : ∀ c, (cells.getD c .empty).flat.width ≤ widths.getD c 0
  pos : ∀ c, (cells.getD c .empty).isEmpty = false → 0 < (cells.getD c .empty).flat.width

namespace Columns

variable {widths : List Nat} {cells : List Doc} {rows : List (List Doc)}

/-- The measured columns have room for every row. -/
theorem covers_measure (hcells : ∀ cell ∈ cells, cell.isEmpty = false →
    cell.flat.forced = false ∧ 0 < cell.flat.width) (hrow : cells ∈ rows) :
    Covers (measure rows) cells := by
  have hcell (c : Nat) : (cells.getD c .empty).flat.forced = false ∧
      (cells.getD c .empty).flat.width ≤ (measure rows).getD c 0 ∧
      ((cells.getD c .empty).isEmpty = false → 0 < (cells.getD c .empty).flat.width) := by
    rw [List.getD_eq_getElem?_getD]
    cases hget : cells[c]? with
    | none => exact ⟨rfl, Nat.zero_le _, nofun⟩
    | some cell =>
        have hwidth := cellWidth_le_measure hrow (List.mk_mem_zipIdx_iff_getElem?.mpr hget)
        rw [cellWidth] at hwidth
        rw [Option.getD_some]
        cases hempty : cell.isEmpty with
        | true =>
            rw [Doc.flat_of_isEmpty hempty]
            exact ⟨rfl, Nat.zero_le _, nofun⟩
        | false =>
            obtain ⟨hforced, hpos⟩ := hcells cell (List.mem_of_getElem? hget) hempty
            rw [hempty, if_neg Bool.false_ne_true] at hwidth
            exact ⟨hforced, hwidth, fun _ => hpos⟩
  exact ⟨fun c => (hcell c).1, fun c => (hcell c).2.1, fun c => (hcell c).2.2⟩

/-- A column takes its width and a space. -/
theorem cells_slot {width : Nat} {cell : Doc} (hforced : cell.flat.forced = false)
    (hwidth : cell.flat.width ≤ width) :
    (slot width cell).cells = if 0 < width then width + 1 else 0 := by
  rw [slot]
  by_cases hzero : width = 0
  · rw [if_pos hzero, if_neg (by omega)]
    rfl
  · rw [if_neg hzero, if_pos (by omega), Stretch.cells_append, Stretch.cells_append,
      Doc.cells_stretch hforced, Stretch.cells_gap, if_pos rfl, Stretch.blanks]
    dsimp only
    omega

/-- What stands before a column reaches up to its edge. -/
theorem Covers.cells_front (h : Covers widths cells) (c : Nat) :
    (front widths cells c).cells = edge widths c := by
  induction c with
  | zero => rw [edge_zero, front, Stretch.cells_empty]
  | succ c ih =>
      rw [front, Stretch.cells_append, ih, cells_slot (h.unforced c) (h.width_le c), edge_succ]

end Columns

namespace Doc

/-! ## Runs with the places of cells -/

/-- A cell that shows something, its column, and the writer before and after it. -/
structure PlacedCell where
  column : Nat
  cell : Doc
  before : Writer
  after : Writer

/-- The run of a row: the writer at the start of its line, the cells in their places, and the writer
before and behind the tail. -/
structure PlacedLine where
  start : Writer
  cells : List PlacedCell
  beforeTail : Writer
  behind : Writer

section

variable (o : LayoutOptions) (level : Int)

/-- Writes cells padded to their columns; `column` is that of the first of them. -/
def placeCells (tailWidth : Nat) (widths : List Int) (started : Bool) (column : Nat) :
    List Doc → Writer → List PlacedCell × Writer
  | [], w => ([], w)
  | cell :: rest, w =>
    if cell.isEmpty && allEmpty rest then ([], w)
    else if cell.isEmpty && widths.headD 0 == 0 then
      placeCells tailWidth widths.tail started (column + 1) rest w
    else
      let before := if started then w.text o [Bytes.space] else w
      if allEmpty rest then
        let after := write o level false tailWidth cell before
        ([⟨column, cell, before, after⟩], after)
      else
        let after := write o level true 0 cell before
        let next := placeCells tailWidth widths.tail true (column + 1) rest
          (after.spaces o (widths.headD 0 - (flat cell).width))
        (if cell.isEmpty then next.1 else ⟨column, cell, before, after⟩ :: next.1, next.2)

/-- Writes a row of a broken table. -/
def placeRow (widths : List Int) (row : TableRow) (w : Writer) : PlacedLine :=
  let start := writeLeading o level false row.leading w
  let run := placeCells o level (lead row.tail).1 widths false 0 row.cells start
  ⟨start, run.1, run.2, write o level false 0 row.tail run.2⟩

/-- Writes the rows of a broken table on lines of their own. -/
def placeRows (widths : List Int) (first : Bool) :
    List TableRow → Writer → List PlacedLine × Writer
  | [], w => ([], w)
  | row :: rest, w =>
    let line := placeRow o level widths row (if first then w else w.newline o level)
    let next := placeRows widths false rest line.behind
    (line :: next.1, next.2)

end

section

variable {o : LayoutOptions} {level : Int}

theorem placeCells_writer (tailWidth : Nat) (widths : List Int) (started : Bool) (column : Nat)
    (cells : List Doc) (w : Writer) :
    (placeCells o level tailWidth widths started column cells w).2 =
      writePaddedCells o level tailWidth widths started cells w := by
  induction cells generalizing widths started column w with
  | nil => rfl
  | cons cell rest ih =>
      rw [placeCells, writePaddedCells]
      split
      · rfl
      · split
        · exact ih _ _ _ _
        · dsimp only
          split
          · rfl
          · exact ih _ _ _ _

theorem placeRow_behind (widths : List Int) (row : TableRow) (w : Writer) :
    (placeRow o level widths row w).behind = writeRow o level false widths row w := by
  cases row with
  | mk leading cells tail =>
      rw [placeRow, placeCells_writer]
      rfl

theorem placeRows_writer (widths : List Int) (first : Bool) (rows : List TableRow) (w : Writer) :
    (placeRows o level widths first rows w).2 =
      writeRows o level false widths (write o level false 0 .hardLine) first rows w := by
  induction rows generalizing first w with
  | nil => rfl
  | cons row rest ih =>
      rw [placeRows, writeRows, ← placeRow_behind]
      exact ih false _

/-! ## The places of cells -/

/-- The cells of a row from column `first` on stand behind what takes the columns before them: all
that show something, in order, the last one right before the tail. Only the last may be broken. -/
structure Placed (o : LayoutOptions) (level : Int) (tailWidth : Nat) (widths : List Nat)
    (cells : List Doc) (start : Writer) (first : Nat) (rest : List Doc)
    (run : List PlacedCell × Writer) : Prop where
  shown : run.1.map (fun p => (p.cell, p.column)) =
    (rest.zipIdx first).filter (fun c => !c.1.isEmpty)
  before : ∀ p ∈ run.1, p.before = start.put o (Columns.front widths cells p.column)
  inner : ∀ p ∈ run.1.dropLast, p.after = p.before.put o p.cell.stretch
  last : ∀ p ∈ run.1.getLast?,
    p.after = write o level false tailWidth p.cell p.before ∧ run.2 = p.after

theorem filter_zipIdx_eq_nil_iff (cells : List Doc) (first : Nat) :
    (cells.zipIdx first).filter (fun c => !c.1.isEmpty) = [] ↔ allEmpty cells = true := by
  induction cells generalizing first with
  | nil => simp [allEmpty]
  | cons cell rest ih =>
      cases hcell : cell.isEmpty with
      | true =>
          rw [List.zipIdx_cons, List.filter_cons_of_neg (by simp [hcell]), allEmpty, hcell,
            Bool.true_and]
          exact ih (first + 1)
      | false => simp [allEmpty, hcell]

namespace Placed

variable {tailWidth : Nat} {widths : List Nat} {first : Nat} {cell : Doc} {cells rest : List Doc}
  {start : Writer} {run : List PlacedCell × Writer}

theorem of_allEmpty (h : allEmpty rest = true) (w : Writer) :
    Placed o level tailWidth widths cells start first rest ([], w) := by
  refine ⟨?_, nofun, nofun, nofun⟩
  exact ((filter_zipIdx_eq_nil_iff rest first).mpr h).symm

theorem skip (hcell : cell.isEmpty = true)
    (h : Placed o level tailWidth widths cells start (first + 1) rest run) :
    Placed o level tailWidth widths cells start first (cell :: rest) run := by
  refine ⟨?_, h.before, h.inner, h.last⟩
  rw [h.shown, List.zipIdx_cons, List.filter_cons_of_neg (by simp [hcell])]

theorem single (hcell : cell.isEmpty = false) (hrest : allEmpty rest = true) {before : Writer}
    (hbefore : before = start.put o (Columns.front widths cells first)) :
    Placed o level tailWidth widths cells start first (cell :: rest)
      ([⟨first, cell, before, write o level false tailWidth cell before⟩],
        write o level false tailWidth cell before) := by
  refine ⟨?_, ?_, ?_, ?_⟩
  · rw [List.zipIdx_cons, List.filter_cons_of_pos (by simp [hcell]),
      (filter_zipIdx_eq_nil_iff rest (first + 1)).mpr hrest]
    rfl
  · simpa using hbefore
  · simp
  · simp

theorem cons (hcell : cell.isEmpty = false) (hrest : allEmpty rest = false)
    {before after : Writer} (hbefore : before = start.put o (Columns.front widths cells first))
    (hafter : after = before.put o cell.stretch)
    (h : Placed o level tailWidth widths cells start (first + 1) rest run) :
    Placed o level tailWidth widths cells start first (cell :: rest)
      (⟨first, cell, before, after⟩ :: run.1, run.2) := by
  have hne : run.1 ≠ [] := by
    intro hnil
    have hshown := h.shown
    rw [hnil, List.map_nil] at hshown
    have hempty := (filter_zipIdx_eq_nil_iff rest (first + 1)).mp hshown.symm
    rw [hrest] at hempty
    cases hempty
  refine ⟨?_, ?_, ?_, ?_⟩
  · rw [List.map_cons, h.shown, List.zipIdx_cons, List.filter_cons_of_pos (by simp [hcell])]
  · exact List.forall_mem_cons.mpr ⟨hbefore, h.before⟩
  · rw [List.dropLast_cons_of_ne_nil hne]
    exact List.forall_mem_cons.mpr ⟨hafter, h.inner⟩
  · rw [List.getLast?_cons_of_ne_nil hne]
    exact h.last

end Placed

/-! ### One row -/

section

variable {widths : List Nat} {cells : List Doc} {start : Writer}

theorem headD_drop (widths : List Nat) (c : Nat) :
    ((widths.drop c).map Int.ofNat).headD 0 = widths.getD c 0 := by
  rw [List.getD_eq_getElem?_getD, List.headD_eq_head?_getD, List.head?_map, List.head?_drop]
  cases widths[c]? with
  | none => rfl
  | some width => rfl

theorem tail_drop (widths : List Nat) (c : Nat) :
    ((widths.drop c).map Int.ofNat).tail = (widths.drop (c + 1)).map Int.ofNat := by
  rw [← List.map_tail, List.tail_drop]

/-- The cell at the start of what is left of a row. -/
theorem drop_cons {c : Nat} {cell : Doc} {rest : List Doc} (h : cells.drop c = cell :: rest) :
    cells.getD c .empty = cell ∧ cells.drop (c + 1) = rest := by
  have hhead : cells[c]? = some cell := by
    rw [← List.head?_drop, h, List.head?_cons]
  constructor
  · rw [List.getD_eq_getElem?_getD, hhead, Option.getD_some]
  · rw [← List.tail_drop, h, List.tail_cons]

/-- A cell, its padding and the space behind it take the column. -/
theorem put_slot {cell : Doc} (hforced : cell.flat.forced = false) {width : Nat} (hpos : 0 < width)
    (w : Writer) :
    ((write o level true 0 cell w).spaces o (width - cell.flat.width)).put o (.gap true) =
      w.put o (Columns.slot width cell) := by
  rw [write_flat level 0 hforced, Writer.spaces_eq_put, Writer.put_put, Writer.put_put,
    Columns.slot, if_neg (Nat.ne_of_gt hpos), Stretch.append_assoc]

/-- Where the writer, with the space that is due, has all that stands before a column, all further
cells stand behind what takes the columns before them. -/
theorem placed_placeCells {tailWidth first : Nat} {started : Bool} {rest : List Doc} {w : Writer}
    (hcovers : Columns.Covers widths cells) (hrest : cells.drop first = rest)
    (hw : w.put o (.gap started) = start.put o (Columns.front widths cells first)) :
    Placed o level tailWidth widths cells start first rest
      (placeCells o level tailWidth ((widths.drop first).map Int.ofNat) started first rest w) := by
  induction rest generalizing first started w with
  | nil => exact .of_allEmpty rfl w
  | cons cell rest ih =>
      obtain ⟨hcell, hnext⟩ := drop_cons hrest
      have hforced := hcovers.unforced first
      have hwidth := hcovers.width_le first
      have hpos := hcovers.pos first
      rw [hcell] at hforced hwidth hpos
      have hfront : Columns.front widths cells (first + 1) =
          Columns.front widths cells first ++ Columns.slot (widths.getD first 0) cell := by
        rw [Columns.front, hcell]
      rw [placeCells, headD_drop, tail_drop]
      split
      · next hempty =>
          rw [Bool.and_eq_true] at hempty
          exact .of_allEmpty (by rw [allEmpty, hempty.1, hempty.2]; rfl) w
      · next hshown =>
          split
          · next hskip =>
              rw [Bool.and_eq_true, beq_iff_eq] at hskip
              have hzero : widths.getD first 0 = 0 := by simpa using hskip.2
              refine .skip hskip.1 (ih hnext ?_)
              rw [hfront, ← Writer.put_put, ← hw, Columns.slot, if_pos hzero, Writer.put_empty]
          · next hskip =>
              rw [w.text_gap_eq_put, hw]
              dsimp only
              split
              · next hlast =>
                  have hcell : cell.isEmpty = false := by simpa [hlast] using hshown
                  exact .single hcell hlast rfl
              · next hmore =>
                  have hmore : allEmpty rest = false := by simpa using hmore
                  have hwide : 0 < widths.getD first 0 := by
                    cases hempty : cell.isEmpty with
                    | true => simpa [hempty, Nat.pos_iff_ne_zero] using hskip
                    | false => exact (hpos hempty).trans_le hwidth
                  have hplaced := @ih (first + 1) true
                    ((write o level true 0 cell (start.put o (Columns.front widths cells first))).spaces
                      o (widths.getD first 0 - cell.flat.width)) hnext (by
                    rw [put_slot hforced hwide, hfront, Writer.put_put])
                  cases hempty : cell.isEmpty with
                  | true => exact hplaced.skip hempty
                  | false => exact hplaced.cons hempty hmore rfl (write_flat level 0 hforced _)

end

/-- The cells of a row stand at the edges of their columns. The line starts with the indentation,
and what stands between that and a cell reaches up to the edge of its column. All cells that show
something are there, in order and without overlap, the last one right before the tail; only the last
may be broken. -/
structure Aligned (o : LayoutOptions) (level : Int) (widths : List Nat) (row : TableRow)
    (line : PlacedLine) : Prop where
  starts : line.start.StartsLine o level
  shown : line.cells.map (fun p => (p.cell, p.column)) =
    row.cells.zipIdx.filter (fun c => !c.1.isEmpty)
  front : ∀ p ∈ line.cells, (p.before.startLine o).out.reverse =
    line.start.out.reverse ++ o.indentation level ++
      (Columns.front widths row.cells p.column).text
  front_cells : ∀ c, (Columns.front widths row.cells c).cells = Columns.edge widths c
  edge : ∀ p ∈ line.cells,
    p.before.column o = level * o.indentSize + Columns.edge widths p.column
  inner : ∀ p ∈ line.cells.dropLast,
    p.after.out.reverse = (p.before.startLine o).out.reverse ++ p.cell.stretch.text
  last : ∀ p ∈ line.cells.getLast?, p.after = write o level false (lead row.tail).1 p.cell p.before ∧
    line.beforeTail = p.after
  behind : line.behind = write o level false 0 row.tail line.beforeTail
  apart : line.cells.Pairwise fun p q => p.after.column o < q.before.column o

section

variable {widths : List Nat} {row : TableRow} {w : Writer}

/-- The columns of the cells of a row ascend. -/
theorem Placed.pairwise_column {tailWidth first : Nat} {cells rest : List Doc} {start : Writer}
    {run : List PlacedCell × Writer}
    (h : Placed o level tailWidth widths cells start first rest run) :
    run.1.Pairwise fun p q => p.column < q.column := by
  have hcolumns : ((rest.zipIdx first).map Prod.snd).Pairwise (· < ·) := by
    rw [List.zipIdx_map_snd]
    exact List.pairwise_lt_range'
  have hshown := (List.pairwise_map.mp hcolumns).sublist
    (List.filter_sublist (p := fun c => !c.1.isEmpty))
  rw [← h.shown, List.pairwise_map] at hshown
  exact hshown

/-- A placed cell is one of the row. -/
theorem Placed.getD_column {tailWidth : Nat} {cells : List Doc} {start : Writer}
    {run : List PlacedCell × Writer}
    (h : Placed o level tailWidth widths cells start 0 cells run) {p : PlacedCell}
    (hp : p ∈ run.1) : cells.getD p.column .empty = p.cell ∧ p.cell.isEmpty = false := by
  have hmem : (p.cell, p.column) ∈ run.1.map fun p => (p.cell, p.column) :=
    List.mem_map_of_mem hp
  rw [h.shown, List.mem_filter] at hmem
  have hget : cells[p.column]? = some p.cell := List.mk_mem_zipIdx_iff_getElem?.mp hmem.1
  refine ⟨?_, by simpa using hmem.2⟩
  rw [List.getD_eq_getElem?_getD, hget, Option.getD_some]

/-- Every row starts its cells at the indentation, whatever stands above it. -/
theorem aligned_placeRow (hcovers : Columns.Covers widths row.cells)
    (hw : w.StartsLine o level) :
    Aligned o level widths row (placeRow o level (widths.map Int.ofNat) row w) := by
  have hstart := hw.writeLeading row.leading
  have hplaced : Placed o level (lead row.tail).1 widths row.cells
      (placeRow o level (widths.map Int.ofNat) row w).start 0 row.cells
      ((placeRow o level (widths.map Int.ofNat) row w).cells,
        (placeRow o level (widths.map Int.ofNat) row w).beforeTail) :=
    placed_placeCells hcovers rfl rfl
  generalize hline : placeRow o level (widths.map Int.ofNat) row w = line at hplaced ⊢
  have hstart : line.start.StartsLine o level := hline ▸ hstart
  have hedge : ∀ p ∈ line.cells,
      p.before.column o = level * o.indentSize + Columns.edge widths p.column := by
    intro p hp
    rw [hplaced.before p hp, Writer.column_put, hstart.column, hcovers.cells_front]
  refine ⟨hstart, hplaced.shown, fun p hp => ?_, hcovers.cells_front, hedge, fun p hp => ?_,
    hplaced.last, ?_, ?_⟩
  · rw [hplaced.before p hp, hstart.out_startLine_put]
    simp
  · obtain ⟨hcell, hshown⟩ := hplaced.getD_column (List.dropLast_subset _ hp)
    have htext : p.cell.stretch.text ≠ [] := by
      intro hnil
      have hforced := hcovers.unforced p.column
      have hpos := hcovers.pos p.column
      rw [hcell] at hforced hpos
      have hcells := cells_stretch hforced
      rw [p.cell.stretch.cells_eq_zero hnil] at hcells
      exact absurd (hpos hshown) (by omega)
    rw [hplaced.inner p hp, Writer.out_put, if_neg htext, List.reverse_append,
      List.reverse_reverse]
  · rw [← hline]
    rfl
  · -- Only the last cell has nothing behind it; the columns of the others are wide enough for them.
    rw [List.pairwise_iff_getElem]
    intro i j hi hj hij
    have hinner : line.cells[i] ∈ line.cells.dropLast := by
      rw [← List.getElem_dropLast (by rw [List.length_dropLast]; omega)]
      exact List.getElem_mem _
    obtain ⟨hcell, hshown⟩ := hplaced.getD_column (List.getElem_mem hi)
    have hforced := hcovers.unforced line.cells[i].column
    have hwidth := hcovers.width_le line.cells[i].column
    have hpos := hcovers.pos line.cells[i].column
    rw [hcell] at hforced hwidth hpos
    have hcolumn : line.cells[i].column + 1 ≤ line.cells[j].column :=
      (List.pairwise_iff_getElem.mp hplaced.pairwise_column) i j hi hj hij
    have hnext := Columns.edge_mono widths hcolumn
    rw [Columns.edge_succ_of_pos ((hpos hshown).trans_le hwidth)] at hnext
    rw [hplaced.inner _ hinner, Writer.column_put, hedge _ (List.getElem_mem hi),
      hedge _ (List.getElem_mem hj), cells_stretch hforced]
    omega

/-! ### All rows -/

theorem aligned_placeRows {rows : List TableRow} {first : Bool} {w : Writer}
    (hcovers : ∀ row ∈ rows, Columns.Covers widths row.cells)
    (hw : first = true → w.StartsLine o level) :
    List.Forall₂ (Aligned o level widths) rows
      (placeRows o level (widths.map Int.ofNat) first rows w).1 := by
  induction rows generalizing first w with
  | nil => exact .nil
  | cons row rest ih =>
      obtain ⟨hrow, hrest⟩ := List.forall_mem_cons.mp hcovers
      have hstart : (if first then w else w.newline o level).StartsLine o level := by
        cases first with
        | true => exact hw rfl
        | false => exact w.startsLine_newline level
      exact .cons (aligned_placeRow hrow hstart) (ih hrest nofun)

/-- What is written for the cells of a row stays. -/
theorem staysIn_placeCells (o : LayoutOptions) (level : Int) (tailWidth : Nat) (widths : List Int)
    (started : Bool) (column : Nat) (cells : List Doc) (w : Writer) :
    let run := placeCells o level tailWidth widths started column cells w
    w.StaysIn run.2 ∧ ∀ p ∈ run.1, p.before.StaysIn p.after ∧ p.after.StaysIn run.2 := by
  induction cells generalizing widths started column w with
  | nil => exact ⟨.refl w, nofun⟩
  | cons cell rest ih =>
      rw [placeCells]
      split
      · exact ⟨.refl w, nofun⟩
      · split
        · exact ih _ _ _ _
        · have hgap : w.StaysIn (if started then w.text o [Bytes.space] else w) := by
            split
            · exact w.staysIn_text _
            · exact .refl w
          dsimp only
          split
          · have hcell := Writer.staysIn_write (o := o) level false tailWidth cell
              (if started then w.text o [Bytes.space] else w)
            exact ⟨hgap.trans hcell, List.forall_mem_singleton.mpr ⟨hcell, .refl _⟩⟩
          · have hcell := Writer.staysIn_write (o := o) level true 0 cell
              (if started then w.text o [Bytes.space] else w)
            generalize hafter : write o level true 0 cell
              (if started then w.text o [Bytes.space] else w) = after at hcell ⊢
            have hspaces := Writer.staysIn_spaces (o := o) after (widths.headD 0 - cell.flat.width)
            obtain ⟨hrest, hplaced⟩ := ih widths.tail true (column + 1)
              (after.spaces o (widths.headD 0 - cell.flat.width))
            refine ⟨((hgap.trans hcell).trans hspaces).trans hrest, ?_⟩
            split
            · exact hplaced
            · exact List.forall_mem_cons.mpr ⟨⟨hcell, hspaces.trans hrest⟩, hplaced⟩

theorem staysIn_placeRow (o : LayoutOptions) (level : Int) (widths : List Int) (row : TableRow)
    (w : Writer) :
    let line := placeRow o level widths row w
    w.StaysIn line.behind ∧
      ∀ p ∈ line.cells, p.before.StaysIn p.after ∧ p.after.StaysIn line.behind := by
  have hleading : w.StaysIn (writeLeading o level false row.leading w) :=
    ((Writer.staysIn_inStep w).writeLeading level false row.leading ⟨rfl, .refl w⟩).2
  obtain ⟨hcells, hplaced⟩ := staysIn_placeCells o level (lead row.tail).1 widths false 0 row.cells
    (writeLeading o level false row.leading w)
  have htail := Writer.staysIn_write (o := o) level false 0 row.tail
    (placeRow o level widths row w).beforeTail
  exact ⟨(hleading.trans hcells).trans htail,
    fun p hp => ⟨(hplaced p hp).1, (hplaced p hp).2.trans htail⟩⟩

/-- What is written for the rows of a table stays. -/
theorem staysIn_placeRows (o : LayoutOptions) (level : Int) (widths : List Int) (first : Bool)
    (rows : List TableRow) (w : Writer) :
    let run := placeRows o level widths first rows w
    w.StaysIn run.2 ∧
      ∀ line ∈ run.1, ∀ p ∈ line.cells, p.before.StaysIn p.after ∧ p.after.StaysIn run.2 := by
  induction rows generalizing first w with
  | nil => exact ⟨.refl w, nofun⟩
  | cons row rest ih =>
      have hstart : w.StaysIn (if first then w else w.newline o level) := by
        split
        · exact .refl w
        · exact w.staysIn_newline level
      obtain ⟨hrow, hplaced⟩ := staysIn_placeRow o level widths row
        (if first then w else w.newline o level)
      obtain ⟨hrest, hplacedRest⟩ := ih false
        (placeRow o level widths row (if first then w else w.newline o level)).behind
      refine ⟨(hstart.trans hrow).trans hrest, List.forall_mem_cons.mpr ⟨fun p hp => ?_, hplacedRest⟩⟩
      exact ⟨(hplaced p hp).1, (hplaced p hp).2.trans hrest⟩

/-- Columns share their left edges. In a table whose columns are as wide as measured, broken into
lines from the start of a line, every cell that shows something begins at the edge of its column:
behind the indentation, and for each column before it that has a width, the cell in it, filled up to
that width, and a space. The cells do not overlap, nothing is padded between the last of a row and
its tail, and all this stays in what is written for the table. -/
theorem columns_share_left_edges {rows : List TableRow}
    (hcells : ∀ row ∈ rows, ∀ cell ∈ row.cells, cell.isEmpty = false →
      cell.flat.forced = false ∧ 0 < cell.flat.width)
    {w : Writer} (hw : w.StartsLine o level) (trail : Nat) :
    let widths := Columns.measure (rows.map TableRow.cells)
    let run := placeRows o level (widths.map Int.ofNat) true rows w
    write o level false trail (Columns.table rows .hardLine true []) w = run.2 ∧
      List.Forall₂ (Aligned o level widths) rows run.1 ∧
      ∀ line ∈ run.1, ∀ p ∈ line.cells, p.before.StaysIn p.after ∧ p.after.StaysIn run.2 := by
  refine ⟨?_, ?_, (staysIn_placeRows o level _ _ _ w).2⟩
  · rw [placeRows_writer, Columns.table, if_neg (by simp), Columns.mask_nil, write]
  · refine aligned_placeRows (fun row hrow => ?_) fun _ => hw
    exact Columns.covers_measure (hcells row hrow) (List.mem_map_of_mem hrow)

/-- Two rows of three columns; the second row has nothing in one of them. -/
theorem columns_share_left_edges_of_rows :
    let rows : List TableRow :=
      [.mk [] [.text "a", .text ": in", .text "bit"] (.text ";"),
        .mk [.text "-- data"] [.text "data", .empty, .text "byte", .empty] .empty]
    let run := placeRows {} 1 [4, 4, 4, 0] true rows { pending := 1 }
    run.2.result = "  a    : in bit;\n  -- data\n  data      byte" ∧
      write {} 1 false 0 (Columns.table rows .hardLine true []) { pending := 1 } = run.2 ∧
      List.Forall₂ (Aligned {} 1 [4, 4, 4, 0]) rows run.1 ∧
      ∀ line ∈ run.1, ∀ p ∈ line.cells, p.before.StaysIn p.after ∧ p.after.StaysIn run.2 := by
  intro rows run
  have hstart : Writer.StartsLine {} 1 { pending := 1 } := ⟨rfl, rfl, .inl rfl⟩
  exact ⟨by decide +kernel, @columns_share_left_edges {} 1 rows (by decide) _ hstart 0⟩

end

end

end Doc

end VhdlStyle
