import Std.Time.DateTime.Timestamp
import VhdlStyle.CommandLine.Program

/-! # The executable

The program itself works on a `Disk` held in memory. What the arguments could refer to is copied
there before it starts, and files that it changed are written back when it has finished. -/

namespace VhdlStyle.Main

open CommandLine

/-- A text for the system. -/
def stringOf (text : Bytes) : String := (String.fromUTF8? ⟨text.toArray⟩).getD ""

/-- The location of an absolute path. -/
def locationOf (path : Bytes) : Location := (Path.elements path).filter (!·.isEmpty)

/-- The present time. -/
def now : IO Instant := do
  return Instant.ofUnix 0 (← Std.Time.Timestamp.now).toNanosecondsSinceUnixEpoch.val

/-- Copies a folder that exists, without what is in it. -/
def copyFolder (d : Disk) (path : Bytes) : IO Disk := do
  let place := (← IO.currentDir) / stringOf path
  if (← place.isDir) && (d.root.get? (locationOf path)).isNone then
    return { d with root := d.root.put (locationOf path) (.folder []) }
  return d

/-- Copies the folders on the way to an absolute path. -/
def copyAncestors (d : Disk) (path : Bytes) : IO Disk :=
  let names := Path.elements path
  (List.range names.length).foldlM (fun d n =>
    copyFolder d (Path.clean ('/' :: Bytes.join "/" (names.take (n + 1))))) d

/-- Copies a file or a folder; sources, settings and what is named itself come with their content. A
search does not enter folders whose names begin with a dot, except inside the cache. -/
partial def copyTree (d : Disk) (path : Bytes) (all : Bool) : IO Disk := do
  let place := (← IO.currentDir) / stringOf path
  if ← place.isDir then
    let mut d ← copyFolder d path
    for entry in ← place.readDir do
      let inner := Path.join [path, Bytes.ofString entry.fileName]
      let folder ← entry.path.isDir
      if folder && !all && entry.fileName.startsWith "." then
        d ← copyFolder d inner
      else if folder then
        d ← copyTree d inner all
      else if all || Sources.isSource inner || Path.base inner == Settings.fileName then
        d ← copyTree d inner all
      else if (d.root.get? (locationOf inner)).isNone then
        d := { d with root := d.root.put (locationOf inner) (.file []) }
    return d
  else if ← place.pathExists then
    let content := (← IO.FS.readBinFile place).data.toList
    return { d with root := d.root.put (locationOf path) (.file content) }
  else return d

/-- The paths that an argument may hold: all of it, the value after an equals sign, and the value
after a letter. -/
def candidates (argument : Bytes) : List Bytes :=
  [argument, ((Bytes.cut? '=' argument).map (·.2)).getD [], argument.drop 2].filter (!·.isEmpty)

/-- Copies what the arguments may refer to. -/
def copyArguments (d : Disk) (arguments : List Bytes) : IO Disk :=
  (arguments.flatMap candidates).foldlM (fun d path => do
    let full := d.absolute path
    let spelled := if Path.isAbsolute path then path
      else List.flatten [Disk.pathOf d.workFolder, "/", path]
    let d ← copyAncestors (← copyAncestors d spelled) full
    copyTree d full false) d

/-- Copies the settings files of a folder and those above it. -/
partial def copySettings (d : Disk) (folder : Bytes) : IO Disk := do
  let d ← copyTree d (Path.join [folder, Settings.fileName]) false
  if Path.dir folder == folder then return d else copySettings d (Path.dir folder)

/-- The folder that holds caches. -/
def cacheHome : IO (Option Bytes) := do
  match ← IO.getEnv "XDG_CACHE_HOME" with
  | some base => if base != "" then return some (Bytes.ofString base)
  | none => pure ()
  return (← IO.getEnv "HOME").map fun home => Path.join [Bytes.ofString home, ".cache"]

/-- Writes changed files back, each through a file beside it. -/
def writeBack (files : List (Location × Bytes)) : IO Unit :=
  files.forM fun (location, content) => do
    let path := Disk.pathOf location
    IO.FS.createDirAll (stringOf (Path.dir path))
    let beside := stringOf path ++ ".tmp"
    IO.FS.writeBinFile beside ⟨content.toArray⟩
    IO.FS.rename beside (stringOf path)

/-- Moves the program on until no files are left to format. -/
partial def drive (p : Program) : IO Program := do
  if p.isDone then return p else drive (p.step (← now))

/-- The whole run. -/
def run (arguments : List Bytes) : IO UInt32 := do
  let here := Bytes.ofString (← IO.currentDir).toString
  let stdin ← IO.getStdin
  let stdout ← IO.getStdout
  let stderr ← IO.getStderr
  let home ← cacheHome
  let wantsInput := arguments.any fun a => (Bytes.ofString "--stdin").isPrefixOf a
  let wantsCache := arguments.any fun a => (Bytes.ofString "--cache").isPrefixOf a
  let input ← if wantsInput then stdin.readBinToEnd else pure ByteArray.empty
  let mut disk : Disk := { workFolder := locationOf here }
  disk ← copySettings (← copyFolder (← copyAncestors disk here) here) here
  disk ← copyArguments disk arguments
  if let some folder := home then
    disk ← copyAncestors disk folder
    if wantsCache then disk ← copyTree disk (Path.join [folder, "vhdl-fmt"]) true
  let noColor := (← IO.getEnv "NO_COLOR").getD ""
  let surroundings : Surroundings :=
    { input := input.data.toList, cacheHome := home, outIsTerminal := ← stdout.isTty,
      errIsTerminal := ← stderr.isTty, noColor := noColor != "" }
  let program ← drive (Program.start (← now) surroundings disk arguments)
  let outcome := program.finish (← now)
  writeBack (disk.changes outcome.disk)
  stdout.write ⟨outcome.out.toArray⟩
  stderr.write ⟨outcome.err.toArray⟩
  return UInt32.ofNat outcome.exitCode

end VhdlStyle.Main

/-- Formats VHDL sources as the arguments ask for. -/
def main (arguments : List String) : IO UInt32 :=
  VhdlStyle.Main.run (arguments.map VhdlStyle.Bytes.ofString)
