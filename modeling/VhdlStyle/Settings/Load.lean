import VhdlStyle.Disk.Basic
import VhdlStyle.Settings.Decode

/-! # Settings files

Settings are read from a file that is named, else from the nearest file called `vhdl-fmt.toml` in a
folder or those above it, else they are the defaults. -/

namespace VhdlStyle.Settings

/-- The name of settings files. -/
def fileName : Bytes := "vhdl-fmt.toml"

/-- A fault, and the file it was found in once that was open. -/
structure LoadFault where
  path : Option Bytes
  fault : Fault
  deriving DecidableEq, Inhabited

/-- The fault in words. -/
def LoadFault.message (e : LoadFault) : Bytes :=
  match e.path with
  | some path => List.flatten [path, ": ", e.fault.message]
  | none => e.fault.message

/-- Reads and checks a settings file. Warnings come also with settings that cannot be used, once the
file could be decoded. -/
def load (d : Disk) (path : Bytes) : Except LoadFault Settings × List Bytes :=
  match d.find path with
  | .error reason =>
    let fault : Disk.Fault := ⟨"open", path, reason⟩
    (.error ⟨none, .cannotOpen (Bytes.ofString "failed to open config: " ++ fault.message)⟩, [])
  | .ok (.folder _) =>
    let fault : Disk.Fault := ⟨"read", path, .isFolder⟩
    (.error ⟨some path, .unreadable fault.message⟩, [])
  | .ok (.file content) =>
    match decode content with
    | .error fault => (.error ⟨some path, fault⟩, [])
    | .ok (s, warnings) =>
      match s.validate with
      | .error fault => (.error ⟨some path, fault⟩, warnings)
      | .ok _ => (.ok s, warnings)

/-- Looks for a settings file in a folder and in at most `depth` folders above it. -/
def searchN (d : Disk) : Nat → Bytes → Except Disk.Fault (Option Bytes)
  | 0, _ => .ok none
  | depth + 1, folder =>
    let candidate := Path.join [folder, fileName]
    match d.stat candidate with
    | .ok _ => .ok (some candidate)
    | .error fault =>
      if !fault.isMissing then .error fault
      else if Path.dir folder == folder then .ok none
      else searchN d depth (Path.dir folder)

/-- The nearest settings file, from a folder upwards; the empty path is the working folder. -/
def search (d : Disk) (start : Bytes) : Except Disk.Fault (Option Bytes) :=
  let folder := d.absolute (start.orElse ".")
  searchN d (folder.length + 1) folder

/-- Where settings came from and what came of it. -/
structure Resolved where
  path : Bytes := []
  warnings : List Bytes := []
  settings : Except LoadFault Settings

/-- The settings of the named file, or of the nearest one, or the defaults with no path. -/
def resolve (d : Disk) (named start : Bytes) : Resolved :=
  let loaded (path : Bytes) : Resolved :=
    let (settings, warnings) := load d path
    ⟨path, warnings, settings⟩
  if !named.isEmpty then loaded named
  else match search d start with
    | .error fault => { settings := .error ⟨none, .cannotOpen (List.flatten
        ["failed to stat ", Quoted.quote fault.path, ": ", fault.message])⟩ }
    | .ok none => { settings := .ok {} }
    | .ok (some path) => loaded path

end VhdlStyle.Settings
