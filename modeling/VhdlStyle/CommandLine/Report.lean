import VhdlStyle.CommandLine.FormatFlags
import VhdlStyle.Text.JsonTree

/-! # Reports on formatted files

Failures are described on the error stream. The other results are reported on the output stream, as
text or as one JSON record. -/

namespace VhdlStyle.CommandLine

/-- What a report writes, and how the command ends. -/
structure Report where
  out : Bytes
  err : Bytes
  outcome : Except Failure Unit

namespace Report

/-- The lines about a file that could not be formatted. -/
def failureText (color : Bool) (r : FileResult) : Bytes :=
  match r.fault with
  | none => []
  | some fault =>
    r.diagnostics color ++ List.flatten ["vhdl-fmt: ", r.path, ": ", fault.message, "\n"]

/-- The text about a file that was formatted. -/
def resultText (f : FormatFlags) (r : FileResult) : Bytes :=
  if r.failed then []
  else if f.diff then r.diff
  else if f.check then
    if r.changed && !f.quiet then r.path ++ [Bytes.lf] else []
  else if f.write then
    if r.changed && !f.quiet then List.flatten ["reformatted ", r.path, "\n"] else []
  else r.output

/-- The record of a result. -/
def resultRecord (r : FileResult) : JsonTree := JsonTree.record [
  ("path", some (.text r.path)),
  ("changed", some (.bool r.changed)),
  ("cached", if r.cached then some (.bool true) else none),
  ("error", r.fault.bind fun fault => JsonTree.text? fault.message),
  ("diagnostics", JsonTree.number? r.diagnosticCount),
  ("diff", JsonTree.text? r.diff)]

/-- The record of the counts. -/
def summaryRecord (s : Summary) : JsonTree := JsonTree.record [
  ("files", some (.number s.files)),
  ("changed", some (.number s.changed)),
  ("unchanged", some (.number s.unchanged)),
  ("cached", some (.number s.cached)),
  ("failed", some (.number s.failed))]

/-- The record of a run. -/
def runRecord (mode : Mode) (rs : List FileResult) : JsonTree := JsonTree.record [
  ("mode", some (.text mode.name)),
  ("files", some (.list (rs.map resultRecord))),
  ("summary", some (summaryRecord (Summary.ofResults rs)))]

/-- A failed file fails the command, and so does a changed one when it was only to be checked. -/
def outcomeOf (f : FormatFlags) (rs : List FileResult) : Except Failure Unit :=
  if rs.any (·.failed) then .error .formatFailed
  else if f.check && rs.any (·.changed) then .error .checkFailed
  else .ok ()

/-- The report on some results. -/
def ofResults (f : FormatFlags) (errColor : Bool) (rs : List FileResult) : Report where
  out := if f.isJson then (runRecord f.mode rs).page else rs.flatMap (resultText f)
  err := rs.flatMap (failureText errColor)
  outcome := outcomeOf f rs

end Report

end VhdlStyle.CommandLine
