import VhdlStyle.CommandLine.FormatFlags
import VhdlStyle.CommandLine.Session
import VhdlStyle.Disk.Sources
import VhdlStyle.Run.Batch
import VhdlStyle.Settings.Load
import VhdlStyle.Token.Listing

/-! # What the commands do

Formatting only prepares its batch here; the batch is worked on step by step elsewhere. -/

namespace VhdlStyle.CommandLine

/-- The disk as it is. -/
def theDisk : Action Disk := return (← get).disk

/-! ## Settings -/

/-- A fault of the settings, with its code. -/
def settingsFailure (code : Code) (message : Bytes) : Failure :=
  .usage (List.flatten [code.id, ": ", message])

/-- The settings for a command and the file they come from. Warnings are shown unless the command is
to be quiet; the flags of formatting go before the file when `overrides` is set. -/
def resolveSettings (fs : Flags) (overrides : Bool) : Action (Settings × Bytes) := do
  let resolved := Settings.resolve (← theDisk) (fs.text "location") []
  let settings ← match resolved.settings with
    | .ok s => pure s
    | .error e => throw (settingsFailure e.fault.code e.message)
  if !fs.switch "quiet" then
    complain (resolved.warnings.flatMap fun w =>
      List.flatten ["warning: ", resolved.path, ": ", w, "\n"])
  let settings := if overrides then overridden fs settings else settings
  if overrides then
    if let .error fault := settings.validate then throw (.usage fault.message)
  if let .error fault := settings.checkVersion Release.current.version then
    throw (settingsFailure fault.code fault.message)
  return (settings, resolved.path)

/-- Writes the default settings into a folder, which is made if it does not exist. -/
def initSettings (fs : Flags) (arguments : List Bytes) : Action Unit := do
  let folder := arguments.headD "."
  let path := Path.join [folder, Settings.fileName]
  match (← theDisk).stat path with
  | .ok _ =>
    if !fs.switch "force" then
      throw (.usage (path ++ Bytes.ofString " already exists (use --force to overwrite)"))
  | .error fault => if !fault.isMissing then throw (.plain fault.message)
  match (← theDisk).makeFolders folder with
  | .ok disk => modify ({ · with disk })
  | .error fault => throw (.plain fault.message)
  createFile [] path ({} : Settings).encode .plain
  if !fs.switch "quiet" then say (List.flatten ["created ", path, "\n"])

/-- Prints the settings and where they come from. -/
def showSettings (fs : Flags) : Action Unit := do
  let (settings, path) ← resolveSettings fs false
  say (List.flatten ["# ", path.orElse "built-in defaults", "\n", settings.encode])

/-! ## Looking at sources -/

/-- A token as a record. -/
def tokenRecord (f : SourceFile) (t : Token) : JsonTree :=
  let start := f.lineCol t.span.start
  JsonTree.record [
    ("kind", some (.text t.kind.name)),
    ("text", some (.text t.text)),
    ("line", some (.number start.line.toNat)),
    ("col", some (.number start.col.toNat)),
    ("leading_trivia", JsonTree.number? t.leading.length)]

/-- Lists the tokens of a file. -/
def listTokens (fs : Flags) (path : Bytes) : Action Unit := do
  let data ← match (← theDisk).read path with
    | .ok data => pure data
    | .error fault => throw (.plain (Bytes.ofString "tokenization failed: " ++ fault.message))
  let (file, files) := FileTable.load {} path data {}
  let (tokens, faults) := file.tokens
  let bag := (Bag.ofLimit (fs.number "max-diagnostics")).addAll faults
  complain (bag.render (some files) ((← get).errColor (fs.text "color")))
  let format := fs.text "format"
  if format == "pretty" then say file.tokenListing
  else if format == "json" then say (JsonTree.list (tokens.map (tokenRecord file))).page
  else throw (.usage (Bytes.ofString "unknown format: " ++ format))
  if bag.hasErrors then throw .formatFailed

/-- Finds the files of some paths. -/
def findSources (paths : List Bytes) : Action (List Bytes) := do
  match Sources.find (← theDisk) paths with
  | .ok files => return files
  | .error fault => throw (.plain fault.message)

/-- Prints the outline of one file; `titled` puts its path above. The answer tells whether the file
is without errors. -/
def outlineFile (fs : Flags) (titled : Bool) (path : Bytes) : Action Bool := do
  match (← theDisk).read path with
  | .error fault =>
    complain (List.flatten ["vhdl-fmt: ", path, ": ", fault.message, "\n"])
    return false
  | .ok data =>
    let (file, files) := FileTable.load {} path data {}
    let (design, bag) := file.parse (Bag.ofLimit (fs.number "max-diagnostics"))
    complain (bag.render (some files) ((← get).errColor (fs.text "color")))
    if titled then say (List.flatten ["== ", path, " ==\n"])
    say design.outline
    return !bag.hasErrors

/-- Prints the outlines of files. -/
def outlineFiles (fs : Flags) (paths : List Bytes) : Action Unit := do
  let files ← findSources paths
  let fine ← files.mapM (outlineFile fs (1 < files.length))
  if !fine.all id then throw .formatFailed

/-- Shows the release. -/
def showRelease (fs : Flags) : Action Unit := do
  let format := CaseMap.toLower (fs.text "format")
  if format == "pretty" then
    let color := (← get).outColor (fs.text "color")
    say (List.flatten ["vhdl-fmt ", Release.current.pretty color, "\n"])
  else if format == "json" then say Release.current.info.page
  else throw (.usage (List.flatten ["unsupported format ", Quoted.quote (fs.text "format"),
    " (must be pretty or json)"]))

/-! ## Formatting -/

/-- Checks the flags and the settings of formatting. -/
def prepareFormat (fs : Flags) (paths : List Bytes) : Action (FormatFlags × Settings) := do
  let f := FormatFlags.ofFlags fs
  if let .error failure := f.validate paths then throw failure
  if (Choice.parse? f.ui).isNone then throw (.usage (Choice.badMessage "ui" f.ui))
  let (settings, _) ← resolveSettings fs true
  return (f, settings)

/-- Opens the cache. -/
def openCache : Action Cache := do
  let s ← get
  match s.surroundings.cacheHome with
  | none => throw (.plain "cache: $HOME is not defined")
  | some home =>
    match Cache.ofFolder s.disk (Path.join [home, "vhdl-fmt"]) with
    | .ok (cache, disk) =>
      set { s with disk }
      return cache
    | .error fault =>
      throw (.plain (Bytes.ofString "cache: failed to create cache dir: " ++ fault.message))

/-- The batch that the flags ask for. -/
def startBatch (now : Instant) (f : FormatFlags) (settings : Settings) (paths : List Bytes) :
    Action Batch := do
  let cache ← if f.cache then some <$> openCache else pure none
  let options : RunOptions := ⟨settings, f.mode, f.diff, f.verify, f.maxDiagnostics, cache⟩
  if f.stdin then
    let s ← get
    return Batch.ofText options f.stdinName s.surroundings.input s.disk s.tracer s.span.id
  let files ← findSources paths
  let s ← get
  return Batch.ofFiles options now files s.disk s.tracer s.span.id

end VhdlStyle.CommandLine
