import VhdlStyle.Text.Cells

/-! # The progress view

The view follows a run: each file has a status, and the tally counts the files of each status. The
view lists failed files first and then those finished last, at most twelve. -/

namespace VhdlStyle

/-- How far a file has come. Numbers outside the list name no status. -/
inductive FileStatus where
  | queued
  | changed
  | unchanged
  | cached
  | failed
  | other (number : UInt8)
  deriving DecidableEq, Inhabited

namespace FileStatus

/-- The status with a number. -/
def ofNumber (n : UInt8) : FileStatus :=
  match n.toNat with
  | 0 => .queued
  | 1 => .changed
  | 2 => .unchanged
  | 3 => .cached
  | 4 => .failed
  | _ => .other n

/-- The name shown to people. -/
def name : FileStatus → Bytes
  | .queued => "queued"
  | .changed => "changed"
  | .unchanged => "unchanged"
  | .cached => "cached"
  | .failed => "error"
  | .other _ => []

end FileStatus

/-- The number of files of each status. -/
structure Tally where
  queued : Int := 0
  changed : Int := 0
  unchanged : Int := 0
  cached : Int := 0
  failed : Int := 0
  deriving DecidableEq, Inhabited

/-- Adds to the count of a status; only the listed ones are counted. -/
def Tally.add? (t : Tally) (d : Int) : FileStatus → Option Tally
  | .queued => some { t with queued := t.queued + d }
  | .changed => some { t with changed := t.changed + d }
  | .unchanged => some { t with unchanged := t.unchanged + d }
  | .cached => some { t with cached := t.cached + d }
  | .failed => some { t with failed := t.failed + d }
  | .other _ => none

/-- A file of the run. -/
structure ProgressItem where
  path : Bytes
  status : FileStatus := .queued
  deriving DecidableEq, Inhabited

/-- The state of the view. `recent` holds the places of the files finished last, newest last. -/
structure Progress where
  title : Bytes
  items : List ProgressItem
  recent : List Nat := []
  tally : Tally
  width : Int := 80
  barWidth : Int := 76
  frame : Nat := 0
  isDone : Bool := false
  deriving DecidableEq, Inhabited

namespace Progress

/-- The most files listed at once. -/
def maxVisible : Nat := 12

/-- All files are queued at first. -/
def start (title : Bytes) (files : List Bytes) : Progress where
  title := title
  items := files.map fun path => { path }
  tally := { queued := files.length }

/-- The place of a file; of equal paths the last one counts. -/
def indexOf? (p : Progress) (path : Bytes) : Option Nat :=
  (p.items.reverse.findIdx? (·.path == path)).map fun i => p.items.length - 1 - i

/-- The last twelve places. -/
def keepRecent (places : List Nat) : List Nat := places.drop (places.length - maxVisible)

/-- A file reaches a status. Unknown files are ignored. The flag tells whether both its statuses
are counted ones; if not, the update stops where the count is missing. -/
def apply (p : Progress) (path : Bytes) (status : FileStatus) : Progress × Bool :=
  match p.indexOf? path with
  | none => (p, true)
  | some i =>
    match p.items[i]? with
    | none => (p, true)
    | some item =>
      match p.tally.add? (-1) item.status with
      | none => (p, false)
      | some tally =>
        let p := { p with tally, items := p.items.set i { item with status } }
        match tally.add? 1 status with
        | none => (p, false)
        | some tally =>
          let recent := if status == .queued then p.recent else keepRecent (p.recent ++ [i])
          ({ p with tally, recent }, true)

/-- The next frame of the spinner; it rests once the run is done. -/
def tick (p : Progress) : Progress := if p.isDone then p else { p with frame := (p.frame + 1) % 8 }

/-- The terminal has a new width. -/
def resize (p : Progress) (width : Int) : Progress :=
  if 0 < width then { p with width, barWidth := width - 4 } else p

/-- The run is over. -/
def finish (p : Progress) : Progress := { p with isDone := true }

/-- The places shown: failed files in order, then the others from the one finished last. -/
def visible (p : Progress) : List Nat :=
  let hasFailed (i : Nat) : Bool := p.items[i]?.any (·.status == .failed)
  let failed := ((List.range p.items.length).filter hasFailed).take maxVisible
  let finished := p.recent.reverse.filter (!hasFailed ·)
  failed ++ finished.take (maxVisible - failed.length)

/-- The frames of the spinner. -/
def frames : List Bytes := ["⣾ ", "⣽ ", "⣻ ", "⢿ ", "⡿ ", "⣟ ", "⣯ ", "⣷ "]

/-- As many whole clusters as fit into `room` cells. -/
def fitting (room : Int) : List Bytes → Bytes
  | [] => []
  | c :: rest =>
    let w := Cells.clusterWidth c
    if room < w then [] else c ++ fitting (room - w) rest

/-- A path cut to a width; a cut path ends in dots and leaves three cells free. -/
def shorten (path : Bytes) (width : Int) : Bytes :=
  if Cells.width path ≤ width then path
  else fitting (width - 6) (Cells.clusters path) ++ Bytes.ofString "..."

/-- Tabs as four spaces, CR LF as LF, and every line filled up to the widest one. -/
def block (text : Bytes) : Bytes :=
  let spaced := text.flatMap fun b => if b == Bytes.tab then List.replicate 4 Bytes.space else [b]
  let lines := Bytes.split Bytes.lf spaced
  let lines := (lines.dropLast.map fun l => if Bytes.endsWith "\r" l then l.dropLast else l) ++
    lines.getLast?.toList
  let widest := (lines.map Cells.width).foldl max 0
  if lines.length ≤ 1 then spaced
  else Bytes.join "\n" (lines.map fun l =>
    l ++ List.replicate (widest - Cells.width l) Bytes.space)

/-- The heading. -/
def header (p : Progress) : Bytes :=
  let finished := (p.items.length : Int) - p.tally.queued
  let text := List.flatten [p.title, " (", Bytes.ofInt finished, "/",
    Bytes.ofNat p.items.length, ")"]
  block (if p.isDone then Bytes.ofString "done: " ++ text
    else List.flatten [(frames[p.frame]?).getD [], " ", text])

/-- The line of a file. -/
def itemLine (p : Progress) (item : ProgressItem) : Bytes :=
  List.flatten ["  ", Bytes.padLeft 10 Bytes.space item.status.name, " ",
    shorten item.path (max (p.width - 14) 20), "\n"]

/-- The bar: empty until the run is done. -/
def bar (p : Progress) : Bytes :=
  let cells := (p.barWidth - 5).toNat
  let (cell, percent) : Bytes × Bytes :=
    if p.isDone then (Bytes.ofString "█", Bytes.ofString " 100%")
    else (Bytes.ofString "░", Bytes.ofString "   0%")
  (List.replicate cells cell).flatten ++ percent

/-- The whole view; a run without files shows nothing. -/
def view (p : Progress) : Bytes :=
  if p.items.isEmpty then []
  else List.flatten [p.header, "\n\n",
    (p.visible.filterMap (p.items[·]?)).flatMap p.itemLine,
    "\n  ", Bytes.ofInt p.tally.changed, " changed, ", Bytes.ofInt p.tally.unchanged,
    " unchanged, ", Bytes.ofInt p.tally.cached, " cached, ", Bytes.ofInt p.tally.failed,
    " failed\n", p.bar, "\n"]

end Progress

end VhdlStyle
