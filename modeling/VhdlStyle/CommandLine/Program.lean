import VhdlStyle.CommandLine.Actions
import VhdlStyle.CommandLine.Help
import VhdlStyle.CommandLine.Report

/-! # The program

A program is started with arguments, moves in steps as long as there are files to format, and is
then finished. Every part is told the time. -/

namespace VhdlStyle.CommandLine

/-- What is left to do. A batch that could not be started is a failure, which is reported only after
the timings. -/
inductive Stage where
  | over (outcome : Except Failure Unit)
  | formatting (flags : FormatFlags) (started : Instant) (batch : Except Failure Batch)
  deriving Inhabited

/-- A program in progress. -/
structure Program where
  session : Session
  stage : Stage
  deriving Inhabited

/-- What a program leaves behind. -/
structure Outcome where
  exitCode : Nat
  out : Bytes
  err : Bytes
  disk : Disk
  deriving Inhabited

namespace Program

/-- What a command that is set up does. -/
def perform (now : Instant) (c : Command) (fs : Flags) (arguments : List Bytes) : Action Stage := do
  match c with
  | .configInit => initSettings fs arguments
  | .configShow => showSettings fs
  | .tokenize => listTokens fs (arguments.headD [])
  | .parse => outlineFiles fs arguments
  | .version => showRelease fs
  | _ =>
    let (f, settings) ← prepareFormat fs arguments
    let before ← get
    match (startBatch now f settings arguments).run before with
    | (batch, after) =>
      set after
      return .formatting f now batch
  return .over (.ok ())

/-- A command whose flags have been read. Help goes before everything else. -/
def launch (now : Instant) (c : Command) (fs : Flags) : Action Stage := do
  let arguments := fs.parsed.arguments
  if fs.switch "help" || c == .help || c == .config then
    say c.helpText
    return .over (.ok ())
  if c == .top && fs.switch "version" then
    say (List.flatten [Command.program, " version ", Release.current.version, "\n"])
    return .over (.ok ())
  if let .error failure := c.checkArguments arguments then throw failure
  setUp now c fs
  perform now c fs arguments

/-- Starts the program. -/
def start (now : Instant) (surroundings : Surroundings) (disk : Disk) (arguments : List Bytes) :
    Program :=
  let session : Session := { surroundings, disk }
  let (c, rest) := Command.find arguments
  match readArguments c.flags rest with
  | .error fault => ⟨session, .over (.error (.usage fault.message))⟩
  | .ok parsed =>
    match (launch now c ⟨c.flags, parsed⟩).run session with
    | (.ok stage, session) => ⟨session, stage⟩
    | (.error failure, session) => ⟨session, .over (.error failure)⟩

/-- No files are left to format. -/
def isDone (p : Program) : Bool :=
  match p.stage with
  | .formatting _ _ (.ok batch) => batch.isDone
  | _ => true

/-- One step further. -/
def step (now : Instant) (p : Program) : Program :=
  match p.stage with
  | .formatting f started (.ok batch) =>
    { p with stage := .formatting f started (.ok (batch.step now)) }
  | _ => p

/-- The program with nothing left to format, if the clock stands still. -/
def run (now : Instant) (p : Program) : Program :=
  match p.stage with
  | .formatting f started (.ok batch) =>
    { p with stage := .formatting f started (.ok (batch.run now)) }
  | _ => p

/-- The session after a batch with its report. -/
def reported (f : FormatFlags) (b : Batch) (s : Session) : Except Failure Unit × Session :=
  let report := Report.ofResults f (s.errColor f.color) b.results
  let s := { s with disk := b.disk, tracer := b.tracer }
  (report.outcome, (s.writeErr report.err).writeOut report.out)

/-- The session after the timings, if they are wanted. -/
def timed (now : Instant) (f : FormatFlags) (started : Instant) (timing : Timing) (s : Session) :
    Session :=
  if f.timings then s.writeErr (timing.summary (now.since started)) else s

/-- The session after all work of a stage. -/
def conclude (now : Instant) (s : Session) : Stage → Except Failure Unit × Session
  | .over outcome => (outcome, s)
  | .formatting f started (.error failure) => (.error failure, timed now f started {} s)
  | .formatting f started (.ok b) =>
    let (outcome, s) := reported f b s
    (outcome, timed now f started b.timing s)

/-- Finishes the program. -/
def finish (now : Instant) (p : Program) : Outcome :=
  let (outcome, s) := conclude now p.session p.stage
  let failed := match outcome with
    | .ok _ => false
    | .error _ => true
  let s := s.tearDown now failed
  let s := match outcome with
    | .ok _ => s
    | .error failure =>
      if failure.isReported then s
      else s.writeErr (List.flatten ["vhdl-fmt: ", failure.message, "\n"])
  ⟨exitCode outcome, s.out, s.err, s.disk⟩

end Program

end VhdlStyle.CommandLine
