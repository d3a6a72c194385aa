import VhdlStyle.Diagnostic.Code
import VhdlStyle.Source.File

/-! # Diagnostics and their bag

A diagnostic points at a span of a source file. A `Bag` collects diagnostics in the order they
are reported and silently refuses those beyond its limit. -/

namespace VhdlStyle

/-- How grave a diagnostic is; levels above `error` exist only as numbers. -/
structure Severity where
  level : UInt8
  deriving DecidableEq, Inhabited

namespace Severity

def info : Severity := ⟨0⟩
def warning : Severity := ⟨1⟩
def error : Severity := ⟨2⟩

/-- The name shown to people. -/
def name (s : Severity) : Bytes :=
  match s.level.toNat with
  | 0 => "INFO"
  | 1 => "WARNING"
  | 2 => "ERROR"
  | _ => "UNKNOWN"

/-- The name in terminal colours: cyan, bold yellow, bold red; other levels stay plain. -/
def painted (s : Severity) (color : Bool) : Bytes :=
  if !color then s.name
  else match s.level.toNat with
    | 0 => List.flatten ["\x1b[36m", s.name, "\x1b[0m"]
    | 1 => List.flatten ["\x1b[33;1m", s.name, "\x1b[0;22m"]
    | 2 => List.flatten ["\x1b[31;1m", s.name, "\x1b[0;22m"]
    | _ => s.name

end Severity

/-- A remark beside a diagnostic. -/
structure Note where
  span : Span
  message : Bytes
  deriving DecidableEq, Inhabited

/-- One finding about a source. -/
structure Diagnostic where
  severity : Severity
  code : Code
  span : Span
  message : Bytes
  notes : List Note := []
  deriving DecidableEq, Inhabited

namespace Diagnostic

/-- An error without notes. -/
def ofError (code : Code) (span : Span) (message : Bytes) : Diagnostic :=
  ⟨.error, code, span, message, []⟩

/-- The diagnostic makes its file unfit for formatting. -/
def isError (d : Diagnostic) : Bool := Severity.error.level ≤ d.severity.level

/-- Sorting compares file, start and end, then severity from grave to light, then the code. -/
def le (a b : Diagnostic) : Bool :=
  if a.span.file != b.span.file then a.span.file < b.span.file
  else if a.span.start != b.span.start then a.span.start < b.span.start
  else if a.span.stop != b.span.stop then a.span.stop < b.span.stop
  else if a.severity != b.severity then b.severity.level < a.severity.level
  else a.code.number ≤ b.code.number

/-- Two diagnostics say the same when code and written span agree. -/
def sameKey (a b : Diagnostic) : Bool := a.code == b.code && a.span.text == b.span.text

end Diagnostic

/-- At most `limit` diagnostics, in the order they came. -/
structure Bag where
  limit : Nat
  items : List Diagnostic := []
  deriving Inhabited

namespace Bag

/-- An empty bag; a limit below one means one. -/
def ofLimit (limit : Int) : Bag := { limit := if limit ≤ 0 then 1 else limit.toNat }

/-- There is room for one more. -/
def hasRoom (b : Bag) : Bool := b.items.length < b.limit

/-- Adds a diagnostic if there is room. -/
def add (b : Bag) (d : Diagnostic) : Bag :=
  if b.hasRoom then { b with items := b.items ++ [d] } else b

/-- Adds diagnostics from the left while there is room. -/
def addAll (b : Bag) (ds : List Diagnostic) : Bag := ds.foldl add b

/-- Some diagnostic is an error. -/
def hasErrors (b : Bag) : Bool := b.items.any Diagnostic.isError

/-- The diagnostics in order; equal ones keep their places. -/
def sort (b : Bag) : Bag := { b with items := b.items.mergeSort Diagnostic.le }

/-- Drops each diagnostic whose code and span have been seen. -/
def dedupItems (seen : List Diagnostic) : List Diagnostic → List Diagnostic
  | [] => []
  | d :: rest =>
    if seen.any d.sameKey then dedupItems seen rest else d :: dedupItems (d :: seen) rest

/-- Keeps the first diagnostic of each code and span. -/
def dedup (b : Bag) : Bag := { b with items := dedupItems [] b.items }

end Bag

namespace Diagnostic

/-- Where a span starts: path, line and column, or the bare span when its file is unknown. -/
def position (files : Option FileTable) (s : Span) : Bytes :=
  match files.bind (·.get? s.file) with
  | none => s.text
  | some f =>
    let start := f.lineCol s.start
    List.flatten [f.path, ":", Bytes.ofNat start.line.toNat, ":", Bytes.ofNat start.col.toNat]

/-- One line for the diagnostic and an indented one for each note. -/
def render (files : Option FileTable) (color : Bool) (d : Diagnostic) : Bytes :=
  List.flatten [position files d.span, ": ", d.severity.painted color, " ", d.code.id, ": ",
    d.message, "\n"] ++
  d.notes.flatMap fun n =>
    List.flatten ["  note: ", position files n.span, ": ", n.message, "\n"]

end Diagnostic

/-- The lines of all diagnostics of the bag. -/
def Bag.render (b : Bag) (files : Option FileTable) (color : Bool) : Bytes :=
  b.items.flatMap (Diagnostic.render files color)

end VhdlStyle
