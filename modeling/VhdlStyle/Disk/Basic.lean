import VhdlStyle.Disk.Tree
import VhdlStyle.Source.Path

/-! # The disk

One tree of files and a working folder. Paths are followed element by element: every element but
the last must be a folder, `..` leads to the folder above, and a path that ends with a slash names
a folder. A fault names the operation, the path as it was given, and the reason. -/

namespace VhdlStyle

namespace Disk

/-- Why an operation failed. -/
inductive Reason where
  | missing
  | notFolder
  | isFolder
  | taken
  | nameTooLong
  | badName
  deriving DecidableEq, Inhabited

/-- The reason in words. -/
def Reason.message : Reason → Bytes
  | .missing => "no such file or directory"
  | .notFolder => "not a directory"
  | .isFolder => "is a directory"
  | .taken => "file exists"
  | .nameTooLong => "file name too long"
  | .badName => "invalid argument"

/-- A failed operation. -/
structure Fault where
  operation : Bytes
  path : Bytes
  reason : Reason
  deriving DecidableEq, Inhabited

/-- The fault in words. -/
def Fault.message (f : Fault) : Bytes :=
  List.flatten [f.operation, " ", f.path, ": ", f.reason.message]

/-- The path led nowhere. -/
def Fault.isMissing (f : Fault) : Bool := f.reason == .missing

end Disk

/-- All files, and the folder that relative paths start from. -/
structure Disk where
  root : FileTree := .folder []
  workFolder : Location := []
  deriving Inhabited

namespace Disk

/-- The longest name of a file. -/
def longestName : Nat := 255

/-- The path of a location. -/
def pathOf (l : Location) : Bytes := '/' :: Bytes.join "/" l

/-- One element further from a location, which must be a folder. -/
def enter (d : Disk) (l : Location) (element : Bytes) : Except Reason Location :=
  match d.root.get? l with
  | none => .error .missing
  | some (.file _) => .error .notFolder
  | some (.folder _) =>
    if element.isEmpty || element == "." then .ok l
    else if element == ".." then .ok l.dropLast
    else if longestName < element.length then .error .nameTooLong
    else .ok (l ++ [element])

/-- The location a path names; its folder exists. -/
def locate (d : Disk) (path : Bytes) : Except Reason Location :=
  if path.isEmpty then .error .missing
  else if path.contains 0 then .error .badName
  else (Path.elements path).foldlM d.enter (if Path.isAbsolute path then [] else d.workFolder)

/-- A path without the slashes at its end. -/
def bare (path : Bytes) : Bytes := (Bytes.trimRight (· == ('/' : UInt8)) path).orElse path

/-- The tree a path names. -/
def find (d : Disk) (path : Bytes) : Except Reason FileTree := do
  match d.root.get? (← d.locate path) with
  | some t => .ok t
  | none => .error .missing

/-- A reason with the operation it stopped. -/
def blame {α : Type} (operation path : Bytes) : Except Reason α → Except Fault α
  | .ok a => .ok a
  | .error reason => .error ⟨operation, path, reason⟩

/-- The tree a path names. -/
def stat (d : Disk) (path : Bytes) : Except Fault FileTree := blame "stat" path (d.find path)

/-- The content of a file. -/
def read (d : Disk) (path : Bytes) : Except Fault Bytes := do
  match ← blame "open" path (d.find path) with
  | .file content => .ok content
  | .folder _ => .error ⟨"read", path, .isFolder⟩

/-- Where a file with some path is, or would be. -/
def place (d : Disk) (path : Bytes) : Except Reason Location := do
  let l ← d.locate (bare path)
  match d.root.get? l with
  | some (.folder _) => .error .isFolder
  | _ => if bare path == path then .ok l else .error .isFolder

/-- Writes a file. Its folder must exist; a file in its place is replaced. -/
def write (d : Disk) (path content : Bytes) : Except Fault Disk :=
  match d.place path with
  | .ok l => .ok { d with root := d.root.put l (.file content) }
  | .error reason => .error ⟨"open", path, reason⟩

/-- Adds to the end of a file that may not exist yet. -/
def append (d : Disk) (path content : Bytes) : Except Fault Disk :=
  match d.read path with
  | .ok before => d.write path (before ++ content)
  | .error _ => d.write path content

/-- Makes one folder, which must not exist. -/
def makeFolder (d : Disk) (path : Bytes) : Except Reason Disk := do
  let l ← d.locate (bare path)
  match d.root.get? l with
  | some _ => .error .taken
  | none => .ok { d with root := d.root.put l (.folder []) }

/-- The part of a path up to its last element. -/
def parent (path : Bytes) : Bytes :=
  ((Bytes.trimRight (· == ('/' : UInt8)) path).reverse.dropWhile (· != ('/' : UInt8))).reverse

/-- Makes a folder and at most `depth` of those above it. -/
def makeFoldersN : Nat → Bytes → Disk → Except Fault Disk
  | 0, _, d => .ok d
  | depth + 1, path, d =>
    match d.find path with
    | .ok (.folder _) => .ok d
    | .ok (.file _) => .error ⟨"mkdir", path, .notFolder⟩
    | .error _ => do
      let d ← if (parent path).isEmpty then .ok d else makeFoldersN depth (parent path) d
      match d.makeFolder path with
      | .ok d => .ok d
      | .error reason =>
        match d.find path with
        | .ok (.folder _) => .ok d
        | _ => .error ⟨"mkdir", path, reason⟩

/-- Makes a folder and those above it that do not exist. -/
def makeFolders (d : Disk) (path : Bytes) : Except Fault Disk :=
  makeFoldersN (path.length + 1) path d

/-- The files of a later state of the disk that are new or have another content. -/
def changes (d later : Disk) : List (Location × Bytes) :=
  let old := d.root.files
  later.root.files.filter fun f => !old.contains f

/-- The path made absolute and cleaned. -/
def absolute (d : Disk) (path : Bytes) : Bytes :=
  if Path.isAbsolute path then Path.clean path else Path.join [pathOf d.workFolder, path]

end Disk

end VhdlStyle
