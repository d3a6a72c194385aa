import VhdlStyle.Proofs.Diagnostics.Found
import VhdlStyle.Run.Job

/-! # When a source is refused

A source is refused when its bag holds an error at the end. The bag is bounded and takes warnings
too, so the source is refused exactly when its first error comes before the bag is full: enough
warnings in front of it, and the source is formatted in spite of its errors. -/

namespace VhdlStyle

/-! ## Jobs -/

namespace Job

/-- The file a job reads its text as. -/
def fileOf (path data : Bytes) : SourceFile := (FileTable.load {} path data {}).1

/-- The text was kept because of errors in it. -/
structure Refused (data : Bytes) (r : FileResult) : Prop where
  fault : r.fault = some (.format .syntaxErrors)
  output : r.output = data
  unchanged : r.changed = false

theorem steps_done (o : RunOptions) (now : Instant) (path : Bytes) (n : Nat) (r : FileResult)
    (d : Disk) : steps o now path n (.done r) d = (.done r, d) := by
  induction n with
  | zero => rfl
  | succ n ih => exact ih

theorem steps_ready_unchanged (o : RunOptions) (now : Instant) (path : Bytes) (n : Nat)
    {r : FileResult} (hr : r.changed = false) (d : Disk) :
    steps o now path (n + 1) (.ready r) d = (.done r, d) := by
  have hstep : step o now path (.ready r) d = (.done r, d) := by
    rw [step, if_neg (by simp [writes, hr])]
  rw [steps, hstep]
  exact steps_done o now path n r d

theorem step_loaded (o : RunOptions) (now : Instant) (path data : Bytes) (d : Disk)
    (hcache : o.isCached d data = false) :
    step o now path (.loaded data) d = (.wanted data, d) := by
  rw [step, hcache]
  rfl

/-- A text whose bag holds an error is kept. -/
theorem step_wanted_errors (o : RunOptions) (now : Instant) (path data : Bytes) (d : Disk)
    (herrors : ((fileOf path data).parse (Bag.ofLimit o.diagnosticLimit)).2.hasErrors = true) :
    step o now path (.wanted data) d = (.ready (kept path data (fileOf path data)
      ((fileOf path data).parse (Bag.ofLimit o.diagnosticLimit)).2 .syntaxErrors), d) := by
  have hparsed := SourceFile.parsed_of_errors herrors
  rw [fileOf] at hparsed
  rw [step, hparsed, fileOf]

/-- From a loaded text with errors the job ends with the text kept and the disk as it was. -/
theorem steps_loaded_errors (o : RunOptions) (now : Instant) (path data : Bytes) (d : Disk)
    (n : Nat) (hcache : o.isCached d data = false)
    (herrors : ((fileOf path data).parse (Bag.ofLimit o.diagnosticLimit)).2.hasErrors = true) :
    steps o now path (n + 3) (.loaded data) d = (.done (kept path data (fileOf path data)
      ((fileOf path data).parse (Bag.ofLimit o.diagnosticLimit)).2 .syntaxErrors), d) := by
  rw [steps, step_loaded o now path data d hcache]
  dsimp only
  rw [steps, step_wanted_errors o now path data d herrors]
  exact steps_ready_unchanged o now path n rfl d

theorem kept_refused (path data : Bytes) (file : SourceFile) (bag : Bag) :
    Refused data (kept path data file bag .syntaxErrors) := ⟨rfl, rfl, rfl⟩

theorem step_wanted_ok (o : RunOptions) (now : Instant) (path data : Bytes) (d : Disk)
    (herrors : ((fileOf path data).parse (Bag.ofLimit o.diagnosticLimit)).2.hasErrors = false) :
    step o now path (.wanted data) d = (.parsed data (fileOf path data)
      ((fileOf path data).parse (Bag.ofLimit o.diagnosticLimit)).1
      ((fileOf path data).parse (Bag.ofLimit o.diagnosticLimit)).2, d) := by
  have hparsed := SourceFile.parsed_of_no_errors herrors
  rw [fileOf] at hparsed
  rw [step, hparsed, fileOf]

/-- The text that is written for a text without errors. -/
def rendered (o : RunOptions) (path data : Bytes) : Bytes :=
  ((fileOf path data).parse (Bag.ofLimit o.diagnosticLimit)).1.render o.settings
    (o.settings.newline (fileOf path data).flags.hadCrlf)

/-- The result of a text without errors: it is formatted or fails its verification. -/
def verified (o : RunOptions) (path data : Bytes) : FileResult :=
  let bag := ((fileOf path data).parse (Bag.ofLimit o.diagnosticLimit)).2
  match verdict o data with
  | .error fault => kept path data (fileOf path data) bag (.roundTrip fault)
  | .ok _ => formatted o path data (fileOf path data) bag (rendered o path data)

theorem verified_not_refused (o : RunOptions) (path data : Bytes) :
    (verified o path data).fault ≠ some (.format .syntaxErrors) := by
  rw [verified]
  cases verdict o data <;> simp [kept, formatted]

theorem step_laidOut (o : RunOptions) (now : Instant) (path data : Bytes) (d : Disk) :
    ∃ d', step o now path (.laidOut data (fileOf path data)
      ((fileOf path data).parse (Bag.ofLimit o.diagnosticLimit)).2 (rendered o path data)) d =
        (.ready (verified o path data), d') := by
  rw [step, verified]
  cases verdict o data with
  | error fault => exact ⟨_, rfl⟩
  | ok _ => exact ⟨_, rfl⟩

/-- From a loaded text without errors the job ends with the verified text. -/
theorem steps_loaded_ok (o : RunOptions) (hmode : o.mode = .print) (now : Instant)
    (path data : Bytes) (d : Disk) (hcache : o.isCached d data = false)
    (herrors : ((fileOf path data).parse (Bag.ofLimit o.diagnosticLimit)).2.hasErrors = false) :
    ∃ d', steps o now path stages (.loaded data) d = (.done (verified o path data), d') := by
  obtain ⟨d', hlaid⟩ := step_laidOut o now path data d
  refine ⟨d', ?_⟩
  rw [rendered, DesignFile.render] at hlaid
  have hready : step o now path (.ready (verified o path data)) d' =
      (.done (verified o path data), d') := by
    rw [step, if_neg (by simp [writes, hmode])]
  rw [stages, steps, step_loaded o now path data d hcache]
  dsimp only
  rw [steps, step_wanted_ok o now path data d herrors]
  dsimp only
  rw [steps, step]
  dsimp only
  rw [steps, step]
  dsimp only
  rw [steps, hlaid]
  dsimp only
  rw [steps, hready]
  exact steps_done o now path 1 _ d'

/-- A text with errors is kept; any other one is verified. -/
theorem formatText_eq (o : RunOptions) (now : Instant) (path data : Bytes) (d : Disk)
    (hcache : o.isCached d data = false) : (formatText o now path data d).1 =
      let bag := ((fileOf path data).parse (Bag.ofLimit o.diagnosticLimit)).2
      if bag.hasErrors then kept path data (fileOf path data) bag .syntaxErrors
      else verified o path data := by
  have hcache' : RunOptions.isCached { o with mode := .print } d data = false := hcache
  have hmode : verified { o with mode := .print } path data = verified o path data := rfl
  dsimp only
  rw [formatText]
  cases herrors : ((fileOf path data).parse (Bag.ofLimit o.diagnosticLimit)).2.hasErrors with
  | true =>
      rw [stages, steps_loaded_errors { o with mode := .print } now path data d 4 hcache' herrors,
        if_pos rfl]
      rfl
  | false =>
      obtain ⟨d', hsteps⟩ :=
        steps_loaded_ok { o with mode := .print } rfl now path data d hcache' herrors
      rw [hsteps, hmode, if_neg Bool.false_ne_true]
      rfl

/-- A text is refused exactly when its bag holds an error. -/
theorem formatText_refused_iff (o : RunOptions) (now : Instant) (path data : Bytes) (d : Disk)
    (hcache : o.isCached d data = false) :
    Refused data (formatText o now path data d).1 ↔
      ((fileOf path data).parse (Bag.ofLimit o.diagnosticLimit)).2.hasErrors = true := by
  rw [formatText_eq o now path data d hcache]
  dsimp only
  cases ((fileOf path data).parse (Bag.ofLimit o.diagnosticLimit)).2.hasErrors with
  | true => exact iff_of_true (kept_refused path data _ _) rfl
  | false => exact iff_of_false (fun h => verified_not_refused o path data h.fault) (by simp)

/-- Working on a file with errors leaves the disk as it was, also where files are written. -/
theorem formatFile_disk_of_errors (o : RunOptions) (now : Instant) (path data : Bytes) (d : Disk)
    (hread : d.read path = .ok data) (hcache : o.isCached d data = false)
    (herrors : ((fileOf path data).parse (Bag.ofLimit o.diagnosticLimit)).2.hasErrors = true) :
    (formatFile o now path d).2 = d := by
  have hqueued : step o now path .queued d = (.loaded data, d) := by
    rw [step, hread]
  rw [formatFile, stages, steps, hqueued]
  dsimp only
  rw [steps_loaded_errors o now path data d 3 hcache herrors]

end Job

/-! ## The exact condition -/

/-- Let `all` be the diagnostics of a source with errors. The source is refused, its text kept and
its file left alone, exactly when fewer diagnostics come before the first error than the bag can
hold. -/
theorem refused_iff_error_within_limit (o : RunOptions) (now : Instant) (path data : Bytes)
    (d : Disk) (all : List Diagnostic) (hall : (SourceFile.ofBytes path data).Finds all)
    (herror : ∃ e ∈ all, e.isError = true) (hcache : o.isCached d data = false) :
    let bag := Bag.ofLimit o.diagnosticLimit
    let inTime := (beforeError all).length < bag.limit
    (((SourceFile.ofBytes path data).format o.settings bag).1 = .error .syntaxErrors ↔ inTime) ∧
    (Job.Refused data (Job.formatText o now path data d).1 ↔ inTime) ∧
    (inTime → d.read path = .ok data → (Job.formatFile o now path d).2 = d) := by
  intro bag inTime
  have htext : ((SourceFile.ofBytes path data).parse bag).2.hasErrors = true ↔ inTime :=
    hall.hasErrors_iff herror o.diagnosticLimit
  -- a file on disk and a text in memory differ in a flag that parsing does not look at
  have hid : (Job.fileOf path data).id = (SourceFile.ofBytes path data).id := rfl
  have hcontent : (Job.fileOf path data).content = (SourceFile.ofBytes path data).content := rfl
  have hfile : ((Job.fileOf path data).parse bag).2.hasErrors = true ↔ inTime := by
    rw [SourceFile.parse_congr hid hcontent bag]
    exact htext
  refine ⟨?_, ?_, ?_⟩
  · exact (SourceFile.format_eq_syntaxErrors_iff _ _ _).trans htext
  · exact (Job.formatText_refused_iff o now path data d hcache).trans hfile
  · intro htime hread
    exact Job.formatFile_disk_of_errors o now path data d hread hcache (hfile.mpr htime)

/-- A warning and then an error, under a limit of two: the source is refused. -/
theorem refused_error_after_warning :
    let data : Bytes := "entity a is end b; x"
    let o : RunOptions := { diagnosticLimit := 2 }
    (∃ all, (SourceFile.ofBytes "a.vhd" data).Finds all ∧ (∃ e ∈ all, e.isError = true) ∧
      (beforeError all).length < 2) ∧
    Job.Refused data (Job.formatText o default "a.vhd" data {}).1 := by
  intro data o
  let f := SourceFile.ofBytes "a.vhd" data
  have hfinds : f.Finds (f.parse (Bag.ofLimit 9)).2.items := ⟨_, rfl, by decide +kernel, rfl⟩
  have herror : ∃ e ∈ (f.parse (Bag.ofLimit 9)).2.items, e.isError = true := by decide +kernel
  have htime : (beforeError (f.parse (Bag.ofLimit 9)).2.items).length < 2 := by decide +kernel
  have hiff := refused_iff_error_within_limit o default "a.vhd" data {} _ hfinds herror rfl
  exact ⟨⟨_, hfinds, herror, htime⟩, hiff.2.1.mpr htime⟩

/-- The same source under a limit of one: the warning fills the bag, and the error is lost. -/
theorem formatted_despite_error :
    let f := SourceFile.ofBytes "a.vhd" "entity a is end b; x"
    (∃ all, f.Finds all ∧ ∃ e ∈ all, e.isError = true) ∧
    (f.format {} (Bag.ofLimit 1)).1 ≠ .error .syntaxErrors := by
  intro f
  have hfinds : f.Finds (f.parse (Bag.ofLimit 9)).2.items := ⟨_, rfl, by decide +kernel, rfl⟩
  have herror : ∃ e ∈ (f.parse (Bag.ofLimit 9)).2.items, e.isError = true := by decide +kernel
  have hlost : (f.parse (Bag.ofLimit 1)).2.hasErrors = false := by decide +kernel
  refine ⟨⟨_, hfinds, herror⟩, ?_⟩
  intro hrefused
  rw [SourceFile.format_eq_syntaxErrors_iff, hlost] at hrefused
  exact Bool.false_ne_true hrefused

end VhdlStyle
