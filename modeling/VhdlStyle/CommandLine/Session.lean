import VhdlStyle.CommandLine.Command
import VhdlStyle.Disk.Basic
import VhdlStyle.Trace.Tracer

/-! # Sessions

A session is what one command can see and change: its surroundings, the disk, the two output
streams, a tracer and profiles. -/

namespace VhdlStyle.CommandLine

/-- What surrounds a command and does not change. -/
structure Surroundings where
  input : Bytes := []
  cacheHome : Option Bytes := none
  outIsTerminal : Bool := false
  errIsTerminal : Bool := false
  noColor : Bool := false
  deriving Inhabited

/-- Where the lines of a trace go. -/
inductive Sink where
  | nowhere
  | err
  | file (path : Bytes)
  deriving DecidableEq, Inhabited

/-- The profiles that were asked for; empty paths stand for none. -/
structure Profiles where
  cpu : Bytes := []
  heap : Bytes := []
  runtime : Bytes := []
  started : Instant := {}
  deriving Inhabited

/-- The state of a command. -/
structure Session where
  surroundings : Surroundings := {}
  disk : Disk := {}
  out : Bytes := []
  err : Bytes := []
  tracer : Trace.Tracer := {}
  sink : Sink := .nowhere
  store : Trace.Store := .stream
  span : Trace.Span := default
  profiles : Profiles := {}
  isSetUp : Bool := false
  deriving Inhabited

/-- Work within a session; what was done before a failure stays done. -/
abbrev Action := ExceptT Failure (StateM Session)

namespace Session

/-- Takes the lines that the tracer has written to where they go. -/
def flushTrace (s : Session) : Session :=
  match s.tracer.stream with
  | none => s
  | some stream =>
    let s := { s with tracer := { s.tracer with stream := some { stream with text := [] } } }
    match s.sink with
    | .nowhere => s
    | .err => { s with err := s.err ++ stream.text }
    | .file path => { s with disk := (s.disk.append path stream.text).toOption.getD s.disk }

/-- Writes to the output stream. -/
def writeOut (s : Session) (text : Bytes) : Session := { s with out := s.out ++ text }

/-- Writes to the error stream, after all lines of the trace. -/
def writeErr (s : Session) (text : Bytes) : Session :=
  let s := s.flushTrace
  { s with err := s.err ++ text }

/-- Diagnostics on the error stream are coloured. -/
def errColor (s : Session) (flag : Bytes) : Bool :=
  Choice.resolve flag (s.surroundings.errIsTerminal && !s.surroundings.noColor)

/-- Texts on the output stream are coloured. -/
def outColor (s : Session) (flag : Bytes) : Bool :=
  Choice.resolve flag (s.surroundings.outIsTerminal && !s.surroundings.noColor)

end Session

/-- Writes to the output stream. -/
def say (text : Bytes) : Action Unit := modify (·.writeOut text)

/-- Writes to the error stream. -/
def complain (text : Bytes) : Action Unit := modify (·.writeErr text)

/-- Creates a file or fails with the fault after some words. -/
def createFile (words path content : Bytes) (failure : Bytes → Failure) : Action Unit := do
  match (← get).disk.write path content with
  | .ok disk => modify ({ · with disk })
  | .error fault => throw (failure (words ++ fault.message))

/-! ## Profiles -/

/-- The content of a profile: the time it covers. -/
def Profiles.text (p : Profiles) (now : Instant) : Bytes :=
  List.flatten ["from ", p.started.text, "\nto ", now.text, "\n"]

/-- Opens the profiles that cover the whole command. -/
def startProfiles (now : Instant) (fs : Flags) : Action Unit := do
  let p : Profiles := ⟨fs.text "cpuprofile", fs.text "memprofile", fs.text "runtime-trace", now⟩
  if !p.cpu.isEmpty then createFile "cpu profile: " p.cpu (p.text now) .plain
  if !p.runtime.isEmpty then createFile "runtime trace: " p.runtime (p.text now) .plain
  modify ({ · with profiles := p })

/-- Writes the profiles; the fault of the one that is only created now comes with the session. -/
def Session.stopProfiles (s : Session) (now : Instant) : Option Disk.Fault × Session :=
  let p := s.profiles
  let rewrite (path : Bytes) (d : Disk) : Disk :=
    if path.isEmpty then d else (d.write path (p.text now)).toOption.getD d
  let s := { s with disk := rewrite p.runtime (rewrite p.cpu s.disk) }
  if p.heap.isEmpty then (none, s)
  else match s.disk.write p.heap (p.text now) with
    | .ok disk => (none, { s with disk })
    | .error fault => (some fault, s)

/-! ## Tracing -/

/-- The trace level that the flags ask for; the name of an output asks for phases. -/
def traceLevel (fs : Flags) : Except Trace.Fault Trace.Level := do
  let level ← Trace.Level.parse (fs.text "trace-level")
  let implied := !(fs.text "trace").isEmpty && !fs.parsed.isGiven "trace-level"
  return if level == .off && implied then .phase else level

/-- Where the trace of the flags goes. -/
def traceSink (store : Trace.Store) (output : Bytes) : Sink :=
  if store == .ring then .nowhere
  else if output.isEmpty || output == "-" then .err
  else .file output

/-- The result, or a failure that says what the fault was about. -/
def orUsage {α : Type} (words : Bytes) : Except Trace.Fault α → Action α
  | .ok a => pure a
  | .error fault => throw (.usage (words ++ fault.message))

/-- Makes the tracer that the flags ask for and begins the span of the command. -/
def startTrace (now : Instant) (c : Command) (fs : Flags) : Action Unit := do
  let level ← orUsage "invalid trace level: " (traceLevel fs)
  if level == .off then return
  let store ← orUsage "invalid trace mode: " (Trace.Store.parse (fs.text "trace-mode"))
  let output := fs.text "trace"
  let sink := traceSink store output
  if let .file path := sink then
    createFile "failed to create tracer: failed to open trace output: " path [] .usage
  let tracer ← orUsage "failed to create tracer: " (Trace.Tracer.ofOptions
    { level, store, outputPath := output, ringSize := fs.number "trace-ring-size" })
  let (span, tracer) := tracer.beginSpan now .driver c.path 0
  modify ({ · with tracer, sink, store, span })
  modify Session.flushTrace

/-- Ends the span of the command. After a failure the events of a lone ring are shown. -/
def Session.stopTrace (s : Session) (now : Instant) (failed : Bool) : Session :=
  let detail : Bytes := if failed then "failed" else "ok"
  let s := { s with tracer := s.tracer.endSpan now s.span detail }
  match s.tracer.ring with
  | some ring =>
    if failed && s.store == .ring then
      s.writeErr (List.flatten ["trace: last ", Bytes.ofNat ring.toList.length,
        " events before failure:\n", ring.dump .lines])
    else s.flushTrace
  | none => s.flushTrace

/-! ## The frame of every command -/

/-- Prepares what all commands have in common. -/
def setUp (now : Instant) (c : Command) (fs : Flags) : Action Unit := do
  let color := fs.text "color"
  if (Choice.parse? color).isNone then throw (.usage (Choice.badMessage "color" color))
  startProfiles now fs
  try startTrace now c fs
  catch failure =>
    modify fun s => (s.stopProfiles now).2
    throw failure
  modify ({ · with isSetUp := true })

/-- Ends what `setUp` began. -/
def Session.tearDown (s : Session) (now : Instant) (failed : Bool) : Session :=
  if !s.isSetUp then s
  else match (s.stopTrace now failed).stopProfiles now with
    | (none, s) => s
    | (some fault, s) =>
      s.writeErr (List.flatten ["vhdl-fmt: profiling: heap profile: ", fault.message, "\n"])

end VhdlStyle.CommandLine
