import VhdlStyle.Cache
import VhdlStyle.Patch.Unified
import VhdlStyle.Run.Result

/-! # The work on one file

A job goes through its stages one step at a time: it reads its file, asks the cache, parses, prints,
lays out, verifies, and writes. A step touches the disk only to read its own file, to use the cache
and to replace its own file at the end. A text that does not come from the disk starts after the
reading. -/

namespace VhdlStyle

/-- What a run was asked to do. -/
structure RunOptions where
  settings : Settings := {}
  mode : Mode := .print
  diff : Bool := false
  verify : Bool := false
  diagnosticLimit : Int := 100
  cache : Option Cache := none
  deriving Inhabited

namespace RunOptions

/-- The digest under which inputs are cached. -/
def digest (o : RunOptions) : Bytes := Digest.ofSettings Release.current.version o.settings

/-- The cache vouches for an input. -/
def isCached (o : RunOptions) (d : Disk) (data : Bytes) : Bool :=
  match o.cache with
  | some cache => cache.isClean d o.digest data
  | none => false

/-- The disk after an input was found to be formatted. A cache that cannot be written is left as it
is. -/
def remember (o : RunOptions) (now : Instant) (d : Disk) (data : Bytes) : Disk :=
  match o.cache with
  | some cache => (cache.markClean d o.digest data now).toOption.getD d
  | none => d

end RunOptions

/-- How far the work on a file has come. -/
inductive Job where
  | queued
  | loaded (data : Bytes)
  | wanted (data : Bytes)
  | parsed (data : Bytes) (file : SourceFile) (design : DesignFile) (bag : Bag)
  | printed (data : Bytes) (file : SourceFile) (bag : Bag) (doc : Doc)
  | laidOut (data : Bytes) (file : SourceFile) (bag : Bag) (output : Bytes)
  | ready (result : FileResult)
  | done (result : FileResult)
  deriving Inhabited

namespace Job

/-- The result of a file whose text was kept. -/
def kept (path data : Bytes) (file : SourceFile) (bag : Bag) (error : FormatError) : FileResult :=
  { path, output := data, fault := some (.format error), files := ⟨[file]⟩, bag := some bag }

/-- The result of a file that was formatted. -/
def formatted (o : RunOptions) (path data : Bytes) (file : SourceFile) (bag : Bag)
    (output : Bytes) : FileResult :=
  let changed := output != data
  { path, output, changed, files := ⟨[file]⟩, bag := some bag
    diff := if changed && o.diff then Patch.unified path data output else [] }

/-- The verdict on a laid out text; without verification every text passes. -/
def verdict (o : RunOptions) (data : Bytes) : Except RoundTripFault Unit :=
  if o.verify then RoundTrip.check data o.settings else .ok ()

/-- The result is to be written over the file. -/
def writes (o : RunOptions) (r : FileResult) : Bool := o.mode == .write && r.changed && !r.failed

/-- One stage further. -/
def step (o : RunOptions) (now : Instant) (path : Bytes) : Job → Disk → Job × Disk
  | .queued, d =>
    match d.read path with
    | .ok data => (.loaded data, d)
    | .error fault => (.done { path, fault := some (.disk fault.message) }, d)
  | .loaded data, d =>
    if o.isCached d data then (.ready { path, output := data, cached := true }, d)
    else (.wanted data, d)
  | .wanted data, d =>
    let file := (FileTable.load {} path data {}).1
    match file.parsed (Bag.ofLimit o.diagnosticLimit) with
    | (.ok design, bag) => (.parsed data file design bag, d)
    | (.error error, bag) => (.ready (kept path data file bag error), d)
  | .parsed data file design bag, d => (.printed data file bag (design.document o.settings), d)
  | .printed data file bag doc, d =>
    let newline := o.settings.newline file.flags.hadCrlf
    (.laidOut data file bag (doc.page (o.settings.layout newline)), d)
  | .laidOut data file bag output, d =>
    match verdict o data with
    | .error fault => (.ready (kept path data file bag (.roundTrip fault)), d)
    | .ok _ =>
      let result := formatted o path data file bag output
      (.ready result, if result.changed then d else o.remember now d data)
  | .ready r, d =>
    if writes o r then
      match d.write path r.output with
      | .ok d => (.done r, o.remember now d r.output)
      | .error fault =>
        let reason := Bytes.ofString "write: " ++ fault.message
        (.done { r with fault := some (.disk reason) }, d)
    else (.done r, d)
  | .done r, d => (.done r, d)

/-- A job that is done stays as it is. -/
@[simp]
theorem step_done (o : RunOptions) (now : Instant) (path : Bytes) (r : FileResult) (d : Disk) :
    step o now path (.done r) d = (.done r, d) := by rw [step]

/-- The name under which the time of the next step is counted. -/
def phase? (o : RunOptions) : Job → Option Bytes
  | .queued => some "read"
  | .wanted _ => some "parse"
  | .parsed .. => some "print"
  | .printed .. => some "layout"
  | .laidOut .. => if o.verify then some "verify" else none
  | .ready r => if writes o r then some "write" else none
  | _ => none

/-- The number of steps that are certainly enough. -/
def stages : Nat := 7

/-- The job after some steps. -/
def steps (o : RunOptions) (now : Instant) (path : Bytes) : Nat → Job → Disk → Job × Disk
  | 0, j, d => (j, d)
  | n + 1, j, d =>
    let (j, d) := j.step o now path d
    steps o now path n j d

/-- The result, once there is one. -/
def result? : Job → Option FileResult
  | .ready r => some r
  | .done r => some r
  | _ => none

/-- The result of a text and the disk after it was formatted; nothing is written over a file. -/
def formatText (o : RunOptions) (now : Instant) (path data : Bytes) (d : Disk) :
    FileResult × Disk :=
  let (j, d) := steps { o with mode := .print } now path stages (.loaded data) d
  (j.result?.getD { path }, d)

/-- The result of a file and the disk after the work on it. -/
def formatFile (o : RunOptions) (now : Instant) (path : Bytes) (d : Disk) : FileResult × Disk :=
  let (j, d) := steps o now path stages .queued d
  (j.result?.getD { path }, d)

end Job

/-- The results of files that are worked on one after the other. -/
def RunOptions.formatFiles (o : RunOptions) (now : Instant) : List Bytes → Disk →
    List FileResult × Disk
  | [], d => ([], d)
  | path :: rest, d =>
    let (r, d) := Job.formatFile o now path d
    let (rs, d) := o.formatFiles now rest d
    (r :: rs, d)

end VhdlStyle
