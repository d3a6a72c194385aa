import VhdlStyle.CommandLine.Failure
import VhdlStyle.CommandLine.Flag
import VhdlStyle.Run.Result
import VhdlStyle.Settings.Basic

/-! # The flags of formatting -/

namespace VhdlStyle.CommandLine

/-- The flags as they were given. -/
structure FormatFlags where
  write : Bool := false
  check : Bool := false
  stdin : Bool := false
  diff : Bool := false
  watch : Bool := false
  cache : Bool := false
  verify : Bool := false
  quiet : Bool := false
  timings : Bool := false
  stdinName : Bytes := "<stdin>"
  format : Bytes := []
  color : Bytes := []
  ui : Bytes := []
  jobs : Int := 0
  maxDiagnostics : Int := 100
  deriving DecidableEq, Inhabited

/-- Flags that do not go together. -/
inductive FlagConflict where
  | writeAndCheck
  | stdinAndPaths
  | stdinAndWrite
  | noInput
  | watchOnly
  | badFormat (text : Bytes)
  | negativeJobs
  deriving DecidableEq, Inhabited

/-- The conflict in words. -/
def FlagConflict.message : FlagConflict → Bytes
  | .writeAndCheck => "--write and --check are mutually exclusive"
  | .stdinAndPaths => "--stdin takes no path arguments"
  | .stdinAndWrite => "--stdin cannot be combined with --write or --watch"
  | .noInput => "no input: give at least one path or use --stdin"
  | .watchOnly => "--watch requires --write"
  | .badFormat text => List.flatten
      ["unsupported report format ", Quoted.quote text, " (expected text|json)"]
  | .negativeJobs => "--jobs must not be negative"

namespace FormatFlags

/-- The flags of a command line. -/
def ofFlags (fs : Flags) : FormatFlags where
  write := fs.switch "write"
  check := fs.switch "check"
  stdin := fs.switch "stdin"
  diff := fs.switch "diff"
  watch := fs.switch "watch"
  cache := fs.switch "cache"
  verify := fs.switch "verify"
  quiet := fs.switch "quiet"
  timings := fs.switch "timings"
  stdinName := fs.text "stdin-name"
  format := fs.text "format"
  color := fs.text "color"
  ui := fs.text "ui"
  jobs := fs.number "jobs"
  maxDiagnostics := fs.number "max-diagnostics"

/-- The report is written for programs. -/
def isJson (f : FormatFlags) : Bool := f.format == "json"

/-- The first conflict among the flags and the paths given. -/
def conflict? (f : FormatFlags) (paths : List Bytes) : Option FlagConflict :=
  if f.write && f.check then some .writeAndCheck
  else if f.stdin && !paths.isEmpty then some .stdinAndPaths
  else if f.stdin && (f.write || f.watch) then some .stdinAndWrite
  else if !f.stdin && paths.isEmpty then some .noInput
  else if f.watch && !f.write then some .watchOnly
  else if f.format != "text" && !f.isJson then some (.badFormat f.format)
  else if f.jobs < 0 then some .negativeJobs
  else none

/-- The flags go together with the paths. -/
def validate (f : FormatFlags) (paths : List Bytes) : Except Failure Unit :=
  match f.conflict? paths with
  | some conflict => .error (.usage conflict.message)
  | none => .ok ()

/-- What becomes of formatted text. -/
def mode (f : FormatFlags) : Mode :=
  if f.write then .write else if f.check then .check else .print

/-- The number of files from which a progress view is shown unasked. -/
def progressThreshold : Nat := 32

/-- A progress view is shown: only when files are written or checked and the report is for people;
unasked only on a terminal and for many files. -/
def showsProgress (f : FormatFlags) (files : Int) (terminal : Bool) : Bool :=
  f.mode != .print && f.format == "text" && !f.quiet &&
    Choice.resolve f.ui (progressThreshold ≤ files && terminal)

end FormatFlags

/-- Settings with those that the command line overrides. -/
def overridden (fs : Flags) (s : Settings) : Settings :=
  let given (name : String) : Bool := fs.parsed.isGiven name
  { s with
    lineLength := if given "line-length" then fs.number "line-length" else s.lineLength
    indentSize := if given "indent-size" then fs.number "indent-size" else s.indentSize
    indentStyle := if given "indent-style" then fs.text "indent-style" else s.indentStyle
    eol := if given "eol" then fs.text "eol" else s.eol }

end VhdlStyle.CommandLine
