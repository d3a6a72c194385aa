import VhdlStyle.Proofs.Cache.Records
import VhdlStyle.Proofs.Diagnostics.Rejection
import VhdlStyle.Proofs.Digest.Keys
import VhdlStyle.Proofs.Run.Course
import VhdlStyle.Run.Batch

/-! # What the cache vouches for

A record is stored where formatting left a text as it was, and where a text that formatting made
was written over a file. Through any history of runs that share a cache, in which the work on many
files goes on in any order and the disk changes between the stages, the cache vouches for no other
text. -/

namespace VhdlStyle

/-! ## One stage -/

namespace RunOptions

variable (o : RunOptions) (path : Bytes)

/-- The design in a text, as the options bound its diagnostics. -/
def Parses (source : Bytes) (design : DesignFile) : Prop :=
  ((Job.fileOf path source).parsed (Bag.ofLimit o.diagnosticLimit)).1 = .ok design

/-- Without a cache this text is made of a source. -/
def Formats (source text : Bytes) : Prop :=
  ((Job.fileOf path source).format o.settings (Bag.ofLimit o.diagnosticLimit)).1 = .ok text

/-- Formatting leaves the text as it is, or the text is written as the result of formatting. -/
def Yields (text : Bytes) : Prop :=
  o.Formats path text text ∨ o.mode = .write ∧ ∃ source, o.Formats path source text

/-- The key of such a text. -/
def Earns (key : Bytes) : Prop :=
  ∃ text, key = Digest.ofInput o.digest text ∧ o.Yields path text

/-- The places the work on a file may touch: its own, if it writes, and records it has earned. -/
def Touches (d : Disk) (l : Location) : Prop :=
  (o.mode = .write ∧ l = d.aim path) ∨
    ∃ c key, o.cache = some c ∧ o.Earns path key ∧ l = d.aim (c.recordPath key)

variable {o path}

theorem Parses.formats {source : Bytes} {design : DesignFile} (h : o.Parses path source design) :
    o.Formats path source (design.render o.settings
      (o.settings.newline (Job.fileOf path source).flags.hadCrlf)) := by
  rw [Parses] at h
  rw [Formats, SourceFile.format_eq, h]
  rfl

/-- Remembering a text touches the record of its key. -/
theorem Earns.grew_remember {text : Bytes} (h : o.Earns path (Digest.ofInput o.digest text))
    (now : Instant) (d : Disk) :
    Disk.Grew (fun l _ => o.Touches path d l) d (o.remember now d text) := by
  cases hcache : o.cache with
  | none =>
      rw [remember, hcache]
      exact .refl
  | some c =>
      rw [remember, hcache]
      dsimp only
      cases hmark : c.markClean d o.digest text now with
      | error fault => exact .refl
      | ok d' =>
          exact (Cache.grew_of_markClean hmark).mono fun l _ hl => .inr ⟨c, _, hcache, h, hl⟩

end RunOptions

namespace Job

variable {o : RunOptions} {path : Bytes} {job : Job}

/-- What a stage has in hand comes from the text the work began with. -/
def Sound (o : RunOptions) (path : Bytes) : Job → Prop
  | .parsed data file design _ => file = fileOf path data ∧ o.Parses path data design
  | .printed data file _ doc => file = fileOf path data ∧
      ∃ design, o.Parses path data design ∧ doc = design.document o.settings
  | .laidOut data _ _ output => o.Formats path data output
  | .ready r => writes o r = true → ∃ source, o.Formats path source r.output
  | _ => True

/-- Only a text that changed is written. -/
theorem of_writes {r : FileResult} (h : writes o r = true) :
    o.mode = .write ∧ r.changed = true := by
  simp only [writes, Bool.and_eq_true, beq_iff_eq] at h
  exact h.1

theorem sound_of_unchanged {r : FileResult} (h : r.changed = false) : Sound o path (.ready r) := by
  intro hwrites
  rw [(of_writes hwrites).2] at h
  cases h

/-- A stage hands on what comes from the same text. -/
theorem Sound.step (h : Sound o path job) (now : Instant) (d : Disk) :
    Sound o path (job.step o now path d).1 := by
  cases job with
  | queued =>
      rw [Job.step]
      split <;> trivial
  | loaded data =>
      rw [Job.step]
      split
      · exact sound_of_unchanged rfl
      · trivial
  | wanted data =>
      rw [Job.step]
      split
      · rename_i design bag hparsed
        exact ⟨rfl, congrArg Prod.fst hparsed⟩
      · exact sound_of_unchanged rfl
  | parsed data file design bag =>
      obtain ⟨hfile, hparses⟩ := h
      exact ⟨hfile, design, hparses, rfl⟩
  | printed data file bag doc =>
      obtain ⟨rfl, design, hparses, rfl⟩ := h
      exact hparses.formats
  | laidOut data file bag output =>
      rw [Job.step]
      split
      · exact sound_of_unchanged rfl
      · exact fun _ => ⟨data, h⟩
  | ready r =>
      rw [Job.step]
      split
      · split <;> trivial
      · trivial
  | done r => trivial

/-- A stage touches nothing else. -/
theorem Sound.grew (h : Sound o path job) (now : Instant) (d : Disk) :
    Disk.Grew (fun l _ => o.Touches path d l) d (job.step o now path d).2 := by
  cases job with
  | queued =>
      rw [Job.step]
      split <;> exact .refl
  | loaded data =>
      rw [Job.step]
      split <;> exact .refl
  | wanted data =>
      rw [Job.step]
      split <;> exact .refl
  | parsed data file design bag => exact .refl
  | printed data file bag doc => exact .refl
  | laidOut data file bag output =>
      rw [Job.step]
      split
      · exact .refl
      · dsimp only
        split
        · exact .refl
        · rename_i hsame
          have hsame : output = data := by simpa [formatted] using hsame
          subst hsame
          exact RunOptions.Earns.grew_remember ⟨output, rfl, .inl h⟩ now d
  | ready r =>
      rw [Job.step]
      split
      · rename_i hwrites
        have hmode := (of_writes hwrites).1
        split
        · rename_i written hwritten
          -- the file itself, and then the record of the text that is in it now
          have hfile := Disk.grew_of_write hwritten
          have hearns : o.Earns path (Digest.ofInput o.digest r.output) :=
            ⟨r.output, rfl, .inr ⟨hmode, h hwrites⟩⟩
          have hrecord := hearns.grew_remember now written
          refine (hfile.mono fun l _ hl => .inl ⟨hmode, hl.1⟩).trans (hrecord.mono fun l _ hl => ?_)
          simpa only [RunOptions.Touches, hfile.aim] using hl
        · exact .refl
      · exact .refl
  | done r => exact .refl

end Job

/-! ## Histories -/

/-- The work on one file under the options of its run. -/
structure Task where
  options : RunOptions
  path : Bytes
  job : Job

namespace Task

/-- One stage further. -/
def step (t : Task) (now : Instant) (d : Disk) : Task × Disk :=
  let (job, d) := t.job.step t.options now t.path d
  ({ t with job }, d)

theorem step_eq (t : Task) (now : Instant) (d : Disk) :
    t.step now d =
      (⟨t.options, t.path, (t.job.step t.options now t.path d).1⟩,
        (t.job.step t.options now t.path d).2) := rfl

/-- The task may share a cache: it has no other, and does not write over the records. -/
structure Shares (c : Cache) (d : Disk) (t : Task) : Prop where
  cache : ∀ other, t.options.cache = some other → other = c
  apart : t.options.mode = .write → ∀ key, d.aim t.path ≠ d.aim (c.recordPath key)

/-- Only the working folder matters for that. -/
theorem Shares.of_workFolder {c : Cache} {d d' : Disk} {t : Task} (h : t.Shares c d)
    (hfolder : d'.workFolder = d.workFolder) : t.Shares c d' where
  cache := h.cache
  apart hmode key := by
    rw [Disk.aim_congr hfolder, Disk.aim_congr hfolder]
    exact h.apart hmode key

end Task

namespace Cache

/-- All tasks there have been, as far as they have come, and the disk: a history starts without
records, takes up files and texts, goes on with any task, and lets others change the disk as long
as they store no records. -/
inductive History (c : Cache) : List Task → Disk → Prop
  | start {d : Disk} (hempty : ∀ key record, ¬d.Holds (c.recordPath key) record) : History c [] d
  | takeUp {tasks : List Task} {d : Disk} (before : History c tasks d) (t : Task)
      (hjob : t.job = .queued ∨ ∃ data, t.job = .loaded data) (hshares : t.Shares c d) :
      History c (t :: tasks) d
  | goOn {front : List Task} {t : Task} {back : List Task} {d : Disk}
      (before : History c (front ++ t :: back) d) (now : Instant) :
      History c (front ++ (t.step now d).1 :: back) (t.step now d).2
  | others {tasks : List Task} {d d' : Disk} (before : History c tasks d)
      (hfolder : d'.workFolder = d.workFolder)
      (hrecords : ∀ key record, d'.Holds (c.recordPath key) record →
        d.Holds (c.recordPath key) record) : History c tasks d'

/-- What is so at every point of a history. -/
structure Honest (c : Cache) (tasks : List Task) (d : Disk) : Prop where
  sound : ∀ t ∈ tasks, t.job.Sound t.options t.path
  shares : ∀ t ∈ tasks, t.Shares c d
  earned : ∀ key record, d.Holds (c.recordPath key) record →
    ∃ t ∈ tasks, t.options.Earns t.path key

variable {c : Cache} {tasks : List Task} {d : Disk}

/-- Going on with a task stores no record it has not earned. -/
theorem Honest.goOn {front : List Task} {t : Task} {back : List Task}
    (h : Honest c (front ++ t :: back) d) (now : Instant) :
    Honest c (front ++ (t.step now d).1 :: back) (t.step now d).2 := by
  have ht : t ∈ front ++ t :: back := by simp
  have hsound := h.sound t ht
  have hgrew : Disk.Grew (fun l _ => t.options.Touches t.path d l) d (t.step now d).2 :=
    hsound.grew now d
  -- the step changes neither the options nor the path of the task
  have hmem {u : Task} (hu : u ∈ front ++ (t.step now d).1 :: back) :
      u = (t.step now d).1 ∨ u ∈ front ++ t :: back := by
    grind
  have hkept {u : Task} (hu : u ∈ front ++ t :: back) :
      ∃ v ∈ front ++ (t.step now d).1 :: back, v.options = u.options ∧ v.path = u.path := by
    have hsame : (t.step now d).1.options = t.options ∧ (t.step now d).1.path = t.path := ⟨rfl, rfl⟩
    grind
  refine ⟨?_, ?_, ?_⟩
  · intro u hu
    rcases hmem hu with rfl | hu
    · exact hsound.step now d
    · exact h.sound u hu
  · intro u hu
    rcases hmem hu with rfl | hu
    · obtain ⟨hcache, hapart⟩ := (h.shares t ht).of_workFolder hgrew.workFolder
      exact ⟨hcache, hapart⟩
    · exact (h.shares u hu).of_workFolder hgrew.workFolder
  · intro key record hrecord
    rcases hgrew.holds hrecord with hold | ⟨hmode, hown⟩ | ⟨c', key', hcache, hearns, hplace⟩
    · obtain ⟨u, hu, hearns⟩ := h.earned key record hold
      obtain ⟨v, hv, hoptions, hpath⟩ := hkept hu
      exact ⟨v, hv, by rwa [hoptions, hpath]⟩
    · exact absurd hown.symm ((h.shares t ht).apart hmode key)
    · obtain rfl := (h.shares t ht).cache c' hcache
      rw [key_of_aim hplace]
      exact ⟨_, List.mem_append_right _ List.mem_cons_self, hearns⟩

theorem History.honest (h : c.History tasks d) : Honest c tasks d := by
  induction h with
  | start hempty =>
      refine ⟨fun t ht => absurd ht List.not_mem_nil, fun t ht => absurd ht List.not_mem_nil, ?_⟩
      exact fun key record hrecord => absurd hrecord (hempty key record)
  | takeUp before t hjob hshares ih =>
      have hsound : t.job.Sound t.options t.path := by
        obtain hjob | ⟨data, hjob⟩ := hjob <;> rw [hjob] <;> trivial
      refine ⟨List.forall_mem_cons.mpr ⟨hsound, ih.sound⟩,
        List.forall_mem_cons.mpr ⟨hshares, ih.shares⟩, fun key record hrecord => ?_⟩
      obtain ⟨u, hu, hearns⟩ := ih.earned key record hrecord
      exact ⟨u, List.mem_cons_of_mem t hu, hearns⟩
  | goOn before now ih => exact ih.goOn now
  | others before hfolder hrecords ih =>
      refine ⟨ih.sound, fun t ht => ?_, fun key record hrecord => ?_⟩
      · exact (ih.shares t ht).of_workFolder hfolder
      · exact ih.earned key record (hrecords key record hrecord)

/-- One stage of the latest task. -/
theorem History.step {o : RunOptions} {path : Bytes} {job : Job}
    (h : c.History (⟨o, path, job⟩ :: tasks) d) (now : Instant) :
    c.History (⟨o, path, (job.step o now path d).1⟩ :: tasks) (job.step o now path d).2 := by
  have hstep := @History.goOn c [] ⟨o, path, job⟩ tasks d h now
  rw [Task.step_eq] at hstep
  exact hstep

/-- Any number of stages of one task. -/
theorem History.steps {o : RunOptions} {path : Bytes} {job : Job}
    (h : c.History (⟨o, path, job⟩ :: tasks) d) (now : Instant) (n : Nat) :
    c.History (⟨o, path, (job.steps o now path n d).1⟩ :: tasks) (job.steps o now path n d).2 := by
  induction n generalizing job d with
  | zero => exact h
  | succ n ih =>
      rw [Job.steps_succ]
      exact ih (h.step now)

end Cache

/-! ## Batches -/

namespace Batch

/-- The task in work. -/
def inWork (b : Batch) : List Task :=
  match b.current with
  | some (path, job) => [⟨b.options, path, job⟩]
  | none => []

/-- The batch goes on with a history, and its other files may share the cache too. -/
structure InHistory (c : Cache) (before : List Task) (b : Batch) : Prop where
  history : ∃ own, (∀ t ∈ own, t.options = b.options) ∧ c.History (b.inWork ++ (own ++ before)) b.disk
  waiting : ∀ path ∈ b.waiting, (Task.mk b.options path .queued).Shares c b.disk

variable {c : Cache} {before : List Task} {b : Batch}

theorem inHistory_ofFiles {d : Disk} (h : c.History before d) {o : RunOptions}
    {files : List Bytes} (hfiles : ∀ path ∈ files, (Task.mk o path .queued).Shares c d)
    (now : Instant) (t : Trace.Tracer) (parent : Nat) :
    (ofFiles o now files d t parent).InHistory c before :=
  ⟨⟨[], by simp, h⟩, hfiles⟩

/-- A single text is not written anywhere. -/
theorem inHistory_ofText {d : Disk} (h : c.History before d) {o : RunOptions}
    (hcache : ∀ other, o.cache = some other → other = c) (path data : Bytes) (t : Trace.Tracer)
    (parent : Nat) : (ofText o path data d t parent).InHistory c before := by
  have hshares : (Task.mk { o with mode := .print } path (.loaded data)).Shares c d :=
    ⟨hcache, fun hmode => by cases hmode⟩
  exact ⟨⟨[], by simp, h.takeUp _ (.inr ⟨data, rfl⟩) hshares⟩, by simp [ofText]⟩

theorem InHistory.settle (h : b.InHistory c before) (now : Instant) :
    (b.settle now).InHistory c before := by
  unfold Batch.settle
  split <;> exact ⟨h.history, h.waiting⟩

theorem InHistory.takeUp (h : b.InHistory c before) (hcurrent : b.current = none) (now : Instant) :
    (b.takeUp now).InHistory c before := by
  obtain ⟨⟨own, hown, hhistory⟩, hwaiting⟩ := h
  rw [inWork, hcurrent] at hhistory
  have hidle : ∃ own, (∀ t ∈ own, t.options = b.options) ∧
      c.History (b.inWork ++ (own ++ before)) b.disk :=
    ⟨own, hown, by rw [inWork, hcurrent]; exact hhistory⟩
  unfold Batch.takeUp
  cases hrest : b.waiting with
  | cons path rest =>
      rw [hrest] at hwaiting
      obtain ⟨hfirst, hothers⟩ := List.forall_mem_cons.mp hwaiting
      exact ⟨⟨own, hown, hhistory.takeUp ⟨b.options, path, .queued⟩ (.inl rfl) hfirst⟩, hothers⟩
  | nil =>
      cases b.passSpan with
      | some span => exact ⟨hidle, by simp⟩
      | none => exact ⟨hidle, hwaiting⟩

theorem InHistory.work {path : Bytes} {job : Job} (h : b.InHistory c before)
    (hcurrent : b.current = some (path, job)) (now : Instant) :
    (b.work now path job).InHistory c before := by
  obtain ⟨⟨own, hown, hhistory⟩, hwaiting⟩ := h
  have hsound : job.Sound b.options path :=
    hhistory.honest.sound ⟨b.options, path, job⟩ (by simp [inWork, hcurrent])
  have hgrew := hsound.grew now b.disk
  rw [inWork, hcurrent] at hhistory
  unfold Batch.work
  split
  · exact ⟨⟨own, hown, by rw [inWork, hcurrent]; exact hhistory⟩, hwaiting⟩
  · exact ⟨⟨own, hown, by rw [inWork, hcurrent]; exact hhistory⟩, hwaiting⟩
  · -- the task is behind the batch now
    exact ⟨⟨_ :: own, List.forall_mem_cons.mpr ⟨rfl, hown⟩, hhistory⟩, hwaiting⟩
  · have hnext := hhistory.step now
    generalize Job.step b.options now path _ b.disk = after at hnext hgrew ⊢
    refine ⟨⟨own, hown, hnext⟩, fun other hother => ?_⟩
    exact (hwaiting other hother).of_workFolder hgrew.workFolder

theorem options_step (b : Batch) (now : Instant) : (b.step now).options = b.options := by
  have hsettle : (b.settle now).options = b.options := by
    unfold Batch.settle
    split <;> rfl
  rw [← hsettle, Batch.step]
  split
  · unfold Batch.takeUp
    split <;> rfl
  · unfold Batch.work
    split <;> rfl

/-- A batch never leaves its history. -/
theorem InHistory.step (h : b.InHistory c before) (now : Instant) :
    (b.step now).InHistory c before := by
  have hsettled := h.settle now
  unfold Batch.step
  dsimp only
  split
  · rename_i hcurrent
    exact hsettled.takeUp hcurrent now
  · rename_i path job hcurrent
    exact hsettled.work hcurrent now

/-- The batch after a step at each of some instants. -/
def course (b : Batch) (nows : List Instant) : Batch := nows.foldl (fun b now => b.step now) b

theorem InHistory.course (h : b.InHistory c before) (nows : List Instant) :
    (b.course nows).InHistory c before ∧ (b.course nows).options = b.options := by
  induction nows generalizing b with
  | nil => exact ⟨h, rfl⟩
  | cons now nows ih =>
      obtain ⟨hhistory, hoptions⟩ := ih (h.step now)
      exact ⟨hhistory, hoptions.trans (b.options_step now)⟩

/-- Wherever a batch stops, the history goes on from there with the tasks of the batch. -/
theorem InHistory.exists_tasks (h : b.InHistory c before) :
    ∃ own, (∀ t ∈ own, t.options = b.options) ∧ c.History (own ++ before) b.disk := by
  obtain ⟨own, hown, hhistory⟩ := h.history
  refine ⟨b.inWork ++ own, List.forall_mem_append.mpr ⟨?_, hown⟩, by rwa [List.append_assoc]⟩
  intro t ht
  rw [inWork] at ht
  split at ht
  · rw [List.mem_singleton.mp ht]
  · cases ht

end Batch

namespace Cache

/-- Runs one after another that share a cache, each as far as it has come: runs over files, which
may be written, and runs over single texts. Between the runs others change the disk as long as they
store no records. -/
inductive Runs (c : Cache) : List RunOptions → Disk → Prop
  | start {d : Disk} (hempty : ∀ key record, ¬d.Holds (c.recordPath key) record) : Runs c [] d
  | files {os : List RunOptions} {d : Disk} (before : Runs c os d) (o : RunOptions)
      (files : List Bytes) (hfiles : ∀ path ∈ files, (Task.mk o path .queued).Shares c d)
      (now : Instant) (t : Trace.Tracer) (parent : Nat) (nows : List Instant) :
      Runs c (o :: os) ((Batch.ofFiles o now files d t parent).course nows).disk
  | text {os : List RunOptions} {d : Disk} (before : Runs c os d) (o : RunOptions)
      (hcache : ∀ other, o.cache = some other → other = c) (path data : Bytes) (t : Trace.Tracer)
      (parent : Nat) (nows : List Instant) :
      Runs c ({ o with mode := .print } :: os)
        ((Batch.ofText o path data d t parent).course nows).disk
  | others {os : List RunOptions} {d d' : Disk} (before : Runs c os d)
      (hfolder : d'.workFolder = d.workFolder)
      (hrecords : ∀ key record, d'.Holds (c.recordPath key) record →
        d.Holds (c.recordPath key) record) : Runs c os d'

/-- Runs make up a history of tasks under their options. -/
theorem Runs.history {c : Cache} {os : List RunOptions} {d : Disk} (h : c.Runs os d) :
    ∃ tasks, c.History tasks d ∧ ∀ t ∈ tasks, t.options ∈ os := by
  have hjoin {own tasks : List Task} {o : RunOptions} {os : List RunOptions}
      (hown : ∀ t ∈ own, t.options = o) (htasks : ∀ t ∈ tasks, t.options ∈ os) :
      ∀ t ∈ own ++ tasks, t.options ∈ o :: os :=
    List.forall_mem_append.mpr ⟨fun t ht => by simp [hown t ht],
      fun t ht => List.mem_cons_of_mem o (htasks t ht)⟩
  induction h with
  | start hempty => exact ⟨[], .start hempty, by simp⟩
  | files before o files hfiles now t parent nows ih =>
      obtain ⟨tasks, hhistory, htasks⟩ := ih
      obtain ⟨hbatch, hoptions⟩ :=
        (Batch.inHistory_ofFiles hhistory hfiles now t parent).course nows
      obtain ⟨own, hown, hafter⟩ := hbatch.exists_tasks
      exact ⟨own ++ tasks, hafter, hjoin (fun t ht => (hown t ht).trans hoptions) htasks⟩
  | text before o hcache path data t parent nows ih =>
      obtain ⟨tasks, hhistory, htasks⟩ := ih
      obtain ⟨hbatch, hoptions⟩ :=
        (Batch.inHistory_ofText hhistory hcache path data t parent).course nows
      obtain ⟨own, hown, hafter⟩ := hbatch.exists_tasks
      exact ⟨own ++ tasks, hafter, hjoin (fun t ht => (hown t ht).trans hoptions) htasks⟩
  | others before hfolder hrecords ih =>
      obtain ⟨tasks, hhistory, htasks⟩ := ih
      exact ⟨tasks, hhistory.others hfolder hrecords, htasks⟩

end Cache

/-! ## Hits -/

namespace RunOptions

/-- The texts that are hashed for the keys of two inputs do not collide. -/
structure Apart (o o' : RunOptions) (data text : Bytes) : Prop where
  settings : Sha256.Separates (Digest.framed [Release.current.version, o.settings.encode])
    (Digest.framed [Release.current.version, o'.settings.encode])
  inputs : Sha256.Separates (Digest.framed [o.digest, data]) (Digest.framed [o'.digest, text])

theorem Apart.eq_of_key {o o' : RunOptions} {data text : Bytes} (h : o.Apart o' data text)
    (hkey : Digest.ofInput o.digest data = Digest.ofInput o'.digest text) :
    o'.settings = o.settings ∧ text = data := by
  have hrelease : Release.current.version.length < 2 ^ 64 := by decide
  obtain ⟨-, hsettings, hdata⟩ := Digest.ofInput_inj hrelease hrelease h.settings h.inputs hkey
  exact ⟨hsettings.symm, hdata.symm⟩

end RunOptions

/-- What the cache vouches for was stored for a task. -/
theorem Cache.History.exists_task {c : Cache} {tasks : List Task} {d : Disk}
    (h : c.History tasks d) {o : RunOptions} (hcache : o.cache = some c) {data : Bytes}
    (hhit : o.isCached d data = true) :
    ∃ t ∈ tasks, ∃ text, Digest.ofInput o.digest data = Digest.ofInput t.options.digest text ∧
      t.options.Yields t.path text := by
  have hclean : c.isClean d o.digest data = true := by
    rw [RunOptions.isCached, hcache] at hhit
    exact hhit
  obtain ⟨record, hrecord⟩ := Cache.holds_of_isClean hclean
  exact h.honest.earned _ record hrecord

/-- A text that the cache vouches for has the key of a text that some task of the history either
leaves as it is or, where files are written, has made of a source. It is that text, and the task has
the same settings, unless texts that are hashed for the two keys collide. -/
theorem cached_texts_are_formatted (c : Cache) (tasks : List Task) (d : Disk)
    (h : c.History tasks d) (o : RunOptions) (hcache : o.cache = some c) (data : Bytes)
    (hhit : o.isCached d data = true) :
    ∃ t ∈ tasks, ∃ text, Digest.ofInput o.digest data = Digest.ofInput t.options.digest text ∧
      (t.options.Formats t.path text text ∨
        t.options.mode = .write ∧ ∃ source, t.options.Formats t.path source text) ∧
      (o.Apart t.options data text → t.options.settings = o.settings ∧ text = data) := by
  obtain ⟨t, ht, text, hkey, hyields⟩ := h.exists_task hcache hhit
  exact ⟨t, ht, text, hkey, hyields, fun hapart => hapart.eq_of_key hkey⟩

/-- The empty text is left as it is, and remembered. -/
theorem cached_texts_are_formatted_of_empty :
    let c : Cache := ⟨"cache"⟩
    let o : RunOptions := { cache := some c }
    ∃ tasks d, c.History tasks d ∧ o.isCached d [] = true ∧
      ∃ t ∈ tasks, ∃ text, Digest.ofInput o.digest [] = Digest.ofInput t.options.digest text ∧
        (t.options.Formats t.path text text ∨
          t.options.mode = .write ∧ ∃ source, t.options.Formats t.path source text) ∧
        (o.Apart t.options [] text → t.options.settings = o.settings ∧ text = []) := by
  intro c o
  have hempty (key record : Bytes) : ¬({} : Disk).Holds (c.recordPath key) record := by
    intro hrecord
    rw [Disk.Holds] at hrecord
    generalize ({} : Disk).aim (c.recordPath key) = l at hrecord
    cases l <;> simp [FileTree.get?, FileTree.child?] at hrecord
  have hshares : Task.Shares c {} ⟨o, "a.vhd", .loaded []⟩ :=
    ⟨fun other hother => (Option.some.inj hother).symm, fun hmode => by cases hmode⟩
  have hhistory := ((Cache.History.start hempty).takeUp _ (.inr ⟨[], rfl⟩) hshares).steps default
    Job.stages
  have hhit : o.isCached (Job.steps o default "a.vhd" Job.stages (.loaded []) {}).2 [] = true := by
    decide +kernel
  exact ⟨_, _, hhistory, hhit, cached_texts_are_formatted c _ _ hhistory o rfl [] hhit⟩

/-- After any runs that share a cache, and in the middle of the last one, the cache vouches for
texts of these runs alone. -/
theorem Cache.Runs.exists_run {c : Cache} {os : List RunOptions} {d : Disk} (h : c.Runs os d)
    {o : RunOptions} (hcache : o.cache = some c) {data : Bytes} (hhit : o.isCached d data = true) :
    ∃ o' ∈ os, ∃ path text, Digest.ofInput o.digest data = Digest.ofInput o'.digest text ∧
      o'.Yields path text ∧ (o.Apart o' data text → o'.settings = o.settings ∧ text = data) := by
  obtain ⟨tasks, hhistory, htasks⟩ := h.history
  obtain ⟨t, ht, text, hkey, hyields⟩ := hhistory.exists_task hcache hhit
  exact ⟨t.options, htasks t ht, t.path, text, hkey, hyields, fun hapart => hapart.eq_of_key hkey⟩

end VhdlStyle
