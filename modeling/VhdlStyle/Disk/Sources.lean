import VhdlStyle.Disk.Basic
import VhdlStyle.Text.CaseMap

/-! # Finding source files

A path that names a file stands for that file, whatever it is called. A path that names a folder
stands for all VHDL sources below it; folders whose names begin with a dot are left out unless they
are named themselves. The files come sorted and without repetition. -/

namespace VhdlStyle

/-- Why there is nothing to work on. -/
inductive SourcesFault where
  | disk (fault : Disk.Fault)
  | noSources
  | cancelled
  deriving DecidableEq, Inhabited

/-- The fault in words. -/
def SourcesFault.message : SourcesFault → Bytes
  | .disk fault => fault.message
  | .noSources => "no VHDL source files found"
  | .cancelled => "context canceled"

namespace Sources

/-- The name ends as those of VHDL sources do, in any case. -/
def isSource (path : Bytes) : Bool :=
  let ending := CaseMap.toLower (Path.extension path)
  ending == ".vhd" || ending == ".vhdl"

/-- The tree is a folder that a search passes by. -/
def isHidden (name : Bytes) (t : FileTree) : Bool :=
  t.isFolder && name.head? == some ('.' : UInt8)

mutual

/-- The sources in a tree that has a path. -/
def below (path : Bytes) : FileTree → List Bytes
  | .file _ => if isSource path then [Path.clean path] else []
  | .folder entries => belowEntries path entries

/-- The sources among the entries of a folder that has a path. -/
def belowEntries (path : Bytes) : List FileEntry → List Bytes
  | [] => []
  | .mk name t :: rest =>
    (if isHidden name t then [] else below (Path.join [path, name]) t) ++ belowEntries path rest

end

/-- The files that a path stands for. -/
def ofPath (d : Disk) (path : Bytes) : Except Disk.Fault (List Bytes) := do
  match ← d.stat path with
  | .file _ => .ok [Path.clean path]
  | t => .ok (below path t)

/-- Paths in order, each once. -/
def sorted (paths : List Bytes) : List Bytes := paths.eraseDups.mergeSort Bytes.le

/-- The files that some paths stand for. -/
def collect (d : Disk) (paths : List Bytes) : Except Disk.Fault (List Bytes) := do
  return sorted (← paths.mapM (ofPath d)).flatten

/-- The files that some paths stand for; there must be one. -/
def find (d : Disk) (paths : List Bytes) : Except SourcesFault (List Bytes) :=
  match collect d paths with
  | .error fault => .error (.disk fault)
  | .ok [] => .error .noSources
  | .ok files => .ok files

/-- `find` for a caller that may have given up: no path is looked at any more. -/
def findUnless (cancelled : Bool) (d : Disk) (paths : List Bytes) :
    Except SourcesFault (List Bytes) :=
  if cancelled && !paths.isEmpty then .error .cancelled else find d paths

end Sources

end VhdlStyle
