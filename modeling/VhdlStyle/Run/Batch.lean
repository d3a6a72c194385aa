import VhdlStyle.Disk.Sources
import VhdlStyle.Run.Job
import VhdlStyle.Timing
import VhdlStyle.Trace.Tracer

/-! # Runs over many files

A batch works on its files one after the other. It moves in small steps, and every step is told the
time, so that traces and timings can follow the work. -/

namespace VhdlStyle

/-- A run in progress. The job in work stands beside its path; `timed` holds the phase that has just
been worked on and when that began. -/
structure Batch where
  options : RunOptions
  waiting : List Bytes := []
  current : Option (Bytes × Job) := none
  results : List FileResult := []
  disk : Disk
  tracer : Trace.Tracer := {}
  parent : Nat := 0
  passSpan : Option Trace.Span := none
  fileSpan : Option Trace.Span := none
  timing : Timing := {}
  timed : Option (Bytes × Instant) := none
  deriving Inhabited

namespace Batch

/-- The batch of some files, under the span numbered `parent`. -/
def ofFiles (o : RunOptions) (now : Instant) (files : List Bytes) (d : Disk) (t : Trace.Tracer)
    (parent : Nat) : Batch :=
  let (span, tracer) := t.beginSpan now .pass "format" parent
  let span := span.field "files" (Bytes.ofNat files.length)
  { options := o, waiting := files, disk := d, tracer, parent := span.id, passSpan := some span }

/-- The batch of a single text, which is not written anywhere. -/
def ofText (o : RunOptions) (path data : Bytes) (d : Disk) (t : Trace.Tracer) (parent : Nat) :
    Batch :=
  { options := { o with mode := .print }, current := some (path, .loaded data), disk := d,
    tracer := t, parent }

/-- Nothing is left to do. -/
def isDone (b : Batch) : Bool := b.current.isNone && b.waiting.isEmpty && b.passSpan.isNone

/-- Counts the time of the phase that was worked on last. -/
def settle (now : Instant) (b : Batch) : Batch :=
  match b.timed with
  | some (name, start) => { b with timing := b.timing.add name (now.since start), timed := none }
  | none => b

/-- Takes up the next file, or closes the run. -/
def takeUp (now : Instant) (b : Batch) : Batch :=
  match b.waiting, b.passSpan with
  | path :: rest, _ => { b with waiting := rest, current := some (path, .queued) }
  | [], some span =>
    { b with
      tracer := b.tracer.endSpan now span (Summary.ofResults b.results).text
      passSpan := none }
  | [], none => b

/-- One stage of the job in work, or the mark of a trace before or after it. -/
def work (now : Instant) (path : Bytes) (job : Job) (b : Batch) : Batch :=
  match job, b.fileSpan with
  | .loaded _, none =>
    let (span, tracer) := b.tracer.beginSpan now .file "file" b.parent
    { b with tracer, fileSpan := some (span.field "path" path) }
  | .ready r, some span =>
    { b with tracer := b.tracer.endSpan now span r.detail, fileSpan := none }
  | .done r, _ => { b with results := b.results ++ [r], current := none }
  | _, _ =>
    let (next, disk) := job.step b.options now path b.disk
    { b with disk, current := some (path, next),
             timed := (job.phase? b.options).map fun name => (name, now) }

/-- One step further. -/
def step (now : Instant) (b : Batch) : Batch :=
  let b := b.settle now
  match b.current with
  | none => b.takeUp now
  | some (path, job) => b.work now path job

/-- The steps that one file takes at most: one to take it up, its stages, two marks, and one to put
down the result. -/
def stepsPerFile : Nat := Job.stages + 4

/-- The batch after some steps. -/
def steps (now : Instant) : Nat → Batch → Batch
  | 0, b => b
  | n + 1, b => steps now n (b.step now)

/-- The batch at its end, if the clock stands still. -/
def run (now : Instant) (b : Batch) : Batch :=
  b.steps now (stepsPerFile * (b.waiting.length + 1) + 1)

end Batch

/-- The results of all files that some paths stand for, and the disk after the work on them. -/
def RunOptions.formatPaths (o : RunOptions) (now : Instant) (cancelled : Bool)
    (paths : List Bytes) (d : Disk) : Except SourcesFault (List FileResult × Disk) :=
  if cancelled then .error .cancelled
  else (Sources.find d paths).map fun files => o.formatFiles now files d

end VhdlStyle
