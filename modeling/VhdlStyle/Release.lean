import VhdlStyle.Text.JsonTree

/-! # The release of the formatter -/

namespace VhdlStyle

/-- What is known about a build. -/
structure Release where
  version : Bytes := "0.1.0"
  commit : Bytes := []
  date : Bytes := []
  deriving DecidableEq, Inhabited

namespace Release

/-- The running release. -/
def current : Release := {}

/-- A text in a terminal colour. -/
def paint (color : Bool) (start stop text : Bytes) : Bytes :=
  if color then List.flatten ["\x1b[", start, "m", text, "\x1b[", stop, "m"] else text

/-- The version cut at its first two dots. -/
def parts? (core : Bytes) : Option (Bytes × Bytes × Bytes) := do
  let (major, rest) ← Bytes.cut? '.' core
  let (minor, patch) ← Bytes.cut? '.' rest
  return (major, minor, patch)

/-- The version with its three parts in yellow, green and blue, and the build in faint letters. A
version without three parts is shown as it is. -/
def pretty (r : Release) (color : Bool) : Bytes :=
  let (core, suffix) := (Bytes.cut? '-' r.version).getD (r.version, [])
  match parts? core with
  | none => r.version
  | some (major, minor, patch) =>
    let extra := (if r.commit.isEmpty then [] else [Bytes.ofString "commit " ++ r.commit]) ++
      (if r.date.isEmpty then [] else [Bytes.ofString "built " ++ r.date])
    List.flatten [paint color "33;1" "0;22" major, ".", paint color "32;1" "0;22" minor, ".",
      paint color "34;1" "0;22" patch,
      if suffix.isEmpty then [] else '-' :: suffix,
      if extra.isEmpty then []
      else ' ' :: paint color "2" "22" (List.flatten ["(", Bytes.join ", " extra, ")"])]

/-- The build as a record. -/
def info (r : Release) : JsonTree := JsonTree.record [
  ("version", some (.text r.version)),
  ("git_commit", JsonTree.text? r.commit),
  ("build_date", JsonTree.text? r.date)]

end Release

end VhdlStyle
