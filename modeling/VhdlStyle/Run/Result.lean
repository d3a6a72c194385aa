import VhdlStyle.Diagnostic.Bag
import VhdlStyle.Format
import VhdlStyle.Progress

/-! # The results of a run

Every file of a run has a result. A file that could not be formatted keeps its text as output. -/

namespace VhdlStyle

/-- What becomes of formatted text. -/
inductive Mode where
  | print
  | write
  | check
  deriving DecidableEq, Inhabited

/-- The name of a mode. -/
def Mode.name : Mode → Bytes
  | .print => "stdout"
  | .write => "write"
  | .check => "check"

/-- Why a file has no new text; the words of a disk are kept as they are. -/
inductive FileFault where
  | format (error : FormatError)
  | disk (reason : Bytes)
  deriving DecidableEq, Inhabited

/-- The fault in words. -/
def FileFault.message : FileFault → Bytes
  | .format error => error.message
  | .disk reason => reason

/-- What became of one file. -/
structure FileResult where
  path : Bytes
  changed : Bool := false
  cached : Bool := false
  fault : Option FileFault := none
  output : Bytes := []
  diff : Bytes := []
  files : FileTable := {}
  bag : Option Bag := none
  deriving Inhabited

namespace FileResult

/-- The file could not be formatted. -/
def failed (r : FileResult) : Bool := r.fault.isSome

/-- The result in one word. -/
def status (r : FileResult) : FileStatus :=
  if r.failed then .failed
  else if r.cached then .cached
  else if r.changed then .changed
  else .unchanged

/-- The result in the words of a trace. -/
def detail (r : FileResult) : Bytes :=
  match r.fault with
  | some fault => Bytes.ofString "failed: " ++ fault.message
  | none => r.status.name

/-- The lines of the diagnostics. -/
def diagnostics (r : FileResult) (color : Bool) : Bytes :=
  match r.bag with
  | some bag => bag.render (some r.files) color
  | none => []

/-- The number of the diagnostics. -/
def diagnosticCount (r : FileResult) : Nat :=
  match r.bag with
  | some bag => bag.items.length
  | none => 0

end FileResult

/-- The results of a run by outcome; cached files count as unchanged too. -/
structure Summary where
  files : Nat := 0
  changed : Nat := 0
  unchanged : Nat := 0
  cached : Nat := 0
  failed : Nat := 0
  deriving DecidableEq, Inhabited

namespace Summary

/-- Counts results. -/
def ofResults (rs : List FileResult) : Summary :=
  let count (p : FileStatus → Bool) : Nat := rs.countP fun r => p r.status
  { files := rs.length
    changed := count (· == .changed)
    unchanged := count fun s => s == .unchanged || s == .cached
    cached := count (· == .cached)
    failed := count (· == .failed) }

/-- The counts in words. -/
def text (s : Summary) : Bytes :=
  List.flatten [Bytes.ofNat s.files, " files: ", Bytes.ofNat s.changed, " changed, ",
    Bytes.ofNat s.unchanged, " unchanged (", Bytes.ofNat s.cached, " cached), ",
    Bytes.ofNat s.failed, " failed"]

end Summary

end VhdlStyle
