import VhdlStyle.Proofs.Disk.Overwriting
import VhdlStyle.Run.Job

/-! # The course of a job

Without a cache the work on a file asks the disk for nothing but its text, and neither time nor
place decides how it goes on. The result is settled as soon as the text is known, and the only
change to the disk is that the text of a changed file is replaced at the end. -/

namespace VhdlStyle

namespace Job

variable {o : RunOptions} {path : Bytes} {job : Job}

/-! ## Stages -/

/-- There is nothing left to do. -/
def isDone : Job → Bool
  | .done _ => true
  | _ => false

/-- The steps that are left at most. -/
def stepsLeft : Job → Nat
  | .queued => 7
  | .loaded _ => 6
  | .wanted _ => 5
  | .parsed .. => 4
  | .printed .. => 3
  | .laidOut .. => 2
  | .ready _ => 1
  | .done _ => 0

theorem stepsLeft_le (job : Job) : job.stepsLeft ≤ stages := by
  cases job <;> simp [stepsLeft, stages]

theorem stepsLeft_eq_zero_iff : job.stepsLeft = 0 ↔ job.isDone = true := by
  cases job <;> simp [stepsLeft, isDone]

theorem exists_of_isDone (hdone : job.isDone = true) : ∃ r, job = .done r := by
  cases job with
  | done r => exact ⟨r, rfl⟩
  | _ => cases hdone

/-- A step leads on. -/
theorem stepsLeft_step (hopen : job.isDone = false) (now : Instant) (d : Disk) :
    (job.step o now path d).1.stepsLeft < job.stepsLeft := by
  cases job with
  | queued => rw [step]; split <;> simp [stepsLeft]
  | loaded data => rw [step]; split <;> simp [stepsLeft]
  | wanted data => rw [step]; split <;> simp [stepsLeft]
  | parsed data file design bag => simp [step, stepsLeft]
  | printed data file bag doc => simp [step, stepsLeft]
  | laidOut data file bag output => rw [step]; split <;> simp [stepsLeft]
  | ready r =>
      rw [step]
      split
      · split <;> simp [stepsLeft]
      · simp [stepsLeft]
  | done r => simp [isDone] at hopen

theorem step_of_isDone (hdone : job.isDone = true) (now : Instant) (d : Disk) :
    job.step o now path d = (job, d) := by
  cases job with
  | done r => exact step_done o now path r d
  | _ => simp [isDone] at hdone

theorem steps_succ (n : Nat) (job : Job) (now : Instant) (d : Disk) :
    job.steps o now path (n + 1) d =
      (job.step o now path d).1.steps o now path n (job.step o now path d).2 := rfl

theorem isDone_steps {n : Nat} (hleft : job.stepsLeft ≤ n) (now : Instant) (d : Disk) :
    (job.steps o now path n d).1.isDone = true := by
  induction n generalizing job d with
  | zero => exact stepsLeft_eq_zero_iff.mp (Nat.le_zero.mp hleft)
  | succ n ih =>
      rw [steps_succ]
      refine ih ?_ _
      by_cases hdone : job.isDone = true
      · rw [step_of_isDone hdone, stepsLeft_eq_zero_iff.mpr hdone]
        exact Nat.zero_le n
      · have hstep : (job.step o now path d).1.stepsLeft < job.stepsLeft :=
          stepsLeft_step (by simpa using hdone) now d
        omega

/-- The last step may be split off as well as the first. -/
theorem steps_succ_eq_step (n : Nat) (job : Job) (now : Instant) (d : Disk) :
    job.steps o now path (n + 1) d =
      (job.steps o now path n d).1.step o now path (job.steps o now path n d).2 := by
  induction n generalizing job d with
  | zero => rfl
  | succ n ih => rw [steps_succ, ih, steps_succ]

/-- A job that is done stays as it is. -/
theorem steps_stages_step (job : Job) (now : Instant) (d : Disk) :
    (job.step o now path d).1.steps o now path stages (job.step o now path d).2 =
      job.steps o now path stages d := by
  rw [← steps_succ, steps_succ_eq_step, step_of_isDone (isDone_steps job.stepsLeft_le now d)]

/-! ## Without a cache -/

/-- The options of a run that writes nothing. -/
def printing (o : RunOptions) : RunOptions := { o with mode := .print }

/-- The next step of the job does not touch the disk. -/
def Quiet (o : RunOptions) : Job → Prop
  | .queued => False
  | .ready r => writes o r = false
  | _ => True

theorem writes_printing (r : FileResult) : writes (printing o) r = false := rfl

/-- A step that does not touch the disk depends on nothing but the job. -/
theorem Quiet.step (hcache : o.cache = none) (h : job.Quiet o) (now : Instant) (d : Disk)
    (now' : Instant) (d' : Disk) :
    job.step o now path d = ((job.step (printing o) now' path d').1, d) := by
  have hcached (data : Bytes) : o.isCached d data = false := by rw [RunOptions.isCached, hcache]
  have hcached' (data : Bytes) : (printing o).isCached d' data = false := by
    rw [RunOptions.isCached, printing, hcache]
  have hremember (data : Bytes) : o.remember now d data = d := by rw [RunOptions.remember, hcache]
  cases job with
  | queued => exact h.elim
  | loaded data => simp [Job.step, hcached, hcached']
  | wanted data =>
      simp only [Job.step, printing]
      split <;> simp [*]
  | parsed data file design bag => rfl
  | printed data file bag doc => rfl
  | laidOut data file bag output =>
      have hverdict : verdict (printing o) data = verdict o data := rfl
      simp only [Job.step, hverdict]
      split <;> simp [hremember, formatted, printing]
  | ready r =>
      have hwrites : writes o r = false := h
      simp [Job.step, hwrites, writes_printing]
  | done r => rfl

theorem quiet_printing_iff : job.Quiet (printing o) ↔ job ≠ .queued := by
  cases job <;> simp [Quiet, writes_printing]

theorem Quiet.printing (h : job.Quiet o) : job.Quiet (printing o) := by
  rw [quiet_printing_iff]
  rintro rfl
  exact h

/-- No step leads back to the reading. -/
theorem step_ne_queued (h : job ≠ .queued) (now : Instant) (d : Disk) :
    (job.step o now path d).1 ≠ .queued := by
  cases job with
  | queued => exact absurd rfl h
  | loaded data => rw [step]; split <;> simp
  | wanted data => rw [step]; split <;> simp
  | parsed data file design bag => simp [step]
  | printed data file bag doc => simp [step]
  | laidOut data file bag output => rw [step]; split <;> simp
  | ready r =>
      rw [step]
      split
      · split <;> simp
      · simp
  | done r => simp [step]

/-- Where nothing is written, a job that has its text goes on alike at any time and on any disk. -/
theorem steps_printing (hcache : o.cache = none) (h : job ≠ .queued) (n : Nat) (now : Instant)
    (d : Disk) (now' : Instant) (d' : Disk) :
    (job.steps (printing o) now path n d).1 = (job.steps (printing o) now' path n d').1 := by
  have hcache' : (printing o).cache = none := hcache
  induction n generalizing job d d' with
  | zero => rfl
  | succ n ih =>
      have hquiet : job.Quiet (printing o) := quiet_printing_iff.mpr h
      rw [steps_succ, steps_succ, hquiet.step hcache' now d now' d',
        hquiet.step hcache' now' d' now' d']
      exact ih (step_ne_queued h now' d') d d'

/-! ## Results -/

/-- The result that a job with its text comes to. -/
def settled (o : RunOptions) (path : Bytes) (job : Job) : Option FileResult :=
  (job.steps (printing o) default path stages {}).1.result?

theorem settled_step (hcache : o.cache = none) (h : job.Quiet o) (now : Instant) (d : Disk) :
    settled o path (job.step o now path d).1 = settled o path job := by
  have hcache' : (printing o).cache = none := hcache
  have hstep : (job.step (printing o) default path {}).1.steps (printing o) default path stages
      (job.step (printing o) default path {}).2 = job.steps (printing o) default path stages {} :=
    steps_stages_step job default {}
  rw [h.printing.step hcache' default {} default {}] at hstep
  rw [settled, settled, h.step hcache now d default {}, ← hstep]
  rfl

theorem settled_done (r : FileResult) : settled o path (.done r) = some r := rfl

/-- Neither the time nor the disk decides the result of a text. -/
theorem settled_loaded (hcache : o.cache = none) (data : Bytes) (now : Instant) (d : Disk) :
    settled o path (.loaded data) = some (formatText o now path data d).1 := by
  have hdone : ((Job.loaded data).steps (printing o) now path stages d).1.isDone = true :=
    isDone_steps (Job.stepsLeft_le (.loaded data)) now d
  rw [settled, steps_printing hcache (by simp) stages default {} now d]
  rw [formatText, ← printing]
  cases hjob : (Job.loaded data).steps (printing o) now path stages d with
  | mk job d' =>
      rw [hjob] at hdone
      cases job with
      | done r => rfl
      | _ => cases hdone

/-- The job comes to the result of the text. -/
def Leads (o : RunOptions) (path data : Bytes) (job : Job) : Prop :=
  job = .queued ∨ settled o path job = settled o path (.loaded data)

/-- The text that the job has written over its file. -/
def written (o : RunOptions) : Job → Option Bytes
  | .done r => if writes o r then some r.output else none
  | _ => none

theorem written_of_not_done (hopen : job.isDone = false) : job.written o = none := by
  cases job <;> first | rfl | simp [isDone] at hopen

/-- A quiet step writes nothing. -/
theorem Quiet.written_step (h : job.Quiet o) (hopen : job.isDone = false) (now : Instant)
    (d : Disk) : (job.step o now path d).1.written o = none := by
  cases job with
  | queued => exact h.elim
  | loaded data => rw [Job.step]; split <;> rfl
  | wanted data => rw [Job.step]; split <;> rfl
  | parsed data file design bag => rfl
  | printed data file bag doc => rfl
  | laidOut data file bag output => rw [Job.step]; split <;> rfl
  | ready r =>
      have hwrites : writes o r = false := h
      simp [Job.step, hwrites, written]
  | done r => simp [isDone] at hopen

/-- One step of a job whose file can be read: the result it comes to stays, and the disk changes
only where the job is done and has written its text. -/
theorem Leads.step {data : Bytes} {d : Disk} (hcache : o.cache = none) (h : job.Leads o path data)
    (hopen : job.isDone = false) (hread : d.read path = .ok data) (now : Instant) :
    (job.step o now path d).1.Leads o path data ∧
      (job.step o now path d).2 =
        ((job.step o now path d).1.written o).elim d (d.overwrite path) := by
  by_cases hquiet : job.Quiet o
  · refine ⟨.inr ?_, ?_⟩
    · rw [settled_step hcache hquiet]
      rcases h with rfl | h
      · exact hquiet.elim
      · exact h
    · rw [hquiet.written_step hopen]
      exact congrArg Prod.snd (hquiet.step hcache now d now d)
  · cases job with
    | queued =>
        rw [Job.step, hread]
        exact ⟨.inr rfl, rfl⟩
    | ready r =>
        have hwrites : writes o r = true := by simpa [Quiet] using hquiet
        have hremember (d : Disk) : o.remember now d r.output = d := by
          rw [RunOptions.remember, hcache]
        have hstep : (Job.ready r).step o now path d = (.done r, d.overwrite path r.output) := by
          simp [Job.step, hwrites, Disk.write_of_read hread, hremember]
        rw [hstep]
        refine ⟨.inr (h.resolve_left (by simp)), ?_⟩
        simp [written, hwrites]
    | _ => exact absurd trivial hquiet

/-- Folders and files stay where they are, and only the job's own file may get another content. -/
theorem Leads.disk_step {data : Bytes} {d : Disk} (hcache : o.cache = none)
    (h : job.Leads o path data) (hopen : job.isDone = false) (hread : d.read path = .ok data)
    (now : Instant) :
    d.SamePlaces (job.step o now path d).2 ∧ ∀ l, (job.step o now path d).2.root.fileAt? l =
      if l = d.aim path then ((job.step o now path d).1.written o).or (d.root.fileAt? l)
      else d.root.fileAt? l := by
  rw [(h.step hcache hopen hread now).2]
  cases (job.step o now path d).1.written o with
  | none => exact ⟨.refl, by simp⟩
  | some content =>
      refine ⟨Disk.samePlaces_overwrite hread content, fun l => ?_⟩
      rw [Option.elim_some, Disk.fileAt?_overwrite hread, Option.some_or]

end Job

end VhdlStyle
