import Mathlib.Algebra.GroupWithZero.Nat
import Mathlib.Data.List.Nodup
import VhdlStyle.Proofs.Cache.Hits
import VhdlStyle.Proofs.Run.Course

/-! # Runs side by side

Several files may be in work at a time. At every moment any of them goes on by one step, or the
next one is taken up where a slot is free; nothing else orders the reading, formatting and writing
of different files. -/

namespace VhdlStyle

/-- The files of a run as far as each has come, in the order they were named, and the disk. -/
structure Pool where
  tasks : List Task
  disk : Disk

namespace Pool

/-- How many files may be in work at a time: as many as asked for, or one for each processor. -/
def slots (processors : Nat) (jobs : Int) (files : Nat) : Nat :=
  min (if jobs ≤ 0 then processors else jobs.toNat) files

/-- No file has been taken up. -/
def ofFiles (o : RunOptions) (files : List Bytes) (d : Disk) : Pool :=
  ⟨files.map fun path => ⟨o, path, .queued⟩, d⟩

/-- The file has been taken up, and there is something left to do. -/
def isInWork (t : Task) : Bool := !(t.job matches .queued) && !t.job.isDone

/-- Some file goes on by one step. One that has not been taken up needs a free slot. -/
inductive Step (slots : Nat) : Pool → Pool → Prop
  | goOn {front : List Task} {t : Task} {back : List Task} {d : Disk}
      (hopen : t.job.isDone = false)
      (hslot : t.job = .queued → (front ++ back).countP isInWork < slots) (now : Instant) :
      Step slots ⟨front ++ t :: back, d⟩
        ⟨front ++ (t.step now d).1 :: back, (t.step now d).2⟩

/-- A number of steps. -/
inductive Run (slots : Nat) (p : Pool) : Nat → Pool → Prop
  | start : Run slots p 0 p
  | step {n : Nat} {q r : Pool} (before : Run slots p n q) (h : Step slots q r) :
      Run slots p (n + 1) r

/-- All files are done. -/
def IsDone (p : Pool) : Prop := ∀ t ∈ p.tasks, t.job.isDone = true

/-- The results there are, in the order of the files. -/
def results (p : Pool) : List FileResult := p.tasks.filterMap fun t => t.job.result?

variable {o : RunOptions} {files : List Bytes} {d : Disk} {m n : Nat} {p q r : Pool}

/-! ## The end of a run -/

/-- The steps that are left at most. -/
def stepsLeft (p : Pool) : Nat := (p.tasks.map fun t => t.job.stepsLeft).sum

theorem stepsLeft_step (h : Step m p q) : q.stepsLeft < p.stepsLeft := by
  obtain ⟨hopen, -, now⟩ := h
  rename_i front t back d
  have hstep : (t.job.step t.options now t.path d).1.stepsLeft < t.job.stepsLeft :=
    Job.stepsLeft_step hopen now d
  simp [stepsLeft, Task.step]
  omega

/-- No run is longer than the stages of all its files. -/
theorem Run.length_add_stepsLeft_le (h : Run m p n q) : n + q.stepsLeft ≤ p.stepsLeft := by
  induction h with
  | start => omega
  | step before h ih =>
      have := stepsLeft_step h
      omega

theorem stepsLeft_ofFiles (o : RunOptions) (files : List Bytes) (d : Disk) :
    (ofFiles o files d).stepsLeft = Job.stages * files.length := by
  induction files with
  | nil => rfl
  | cons path rest ih =>
      have hrest : ((rest.map fun path => Task.mk o path .queued).map
        fun t => t.job.stepsLeft).sum = Job.stages * rest.length := ih
      simp only [stepsLeft, ofFiles, List.map_cons, List.sum_cons, hrest, List.length_cons]
      simp [Job.stepsLeft, Job.stages]
      omega

/-- While there is a slot at all, some file can go on until all are done. -/
theorem exists_step (hslots : p.tasks ≠ [] → 0 < m) : p.IsDone ∨ ∃ q, Step m p q := by
  by_cases hdone : p.IsDone
  · exact .inl hdone
  obtain ⟨tasks, d⟩ := p
  refine .inr ?_
  by_cases hwork : ∃ t ∈ tasks, isInWork t = true
  · obtain ⟨t, ht, hinWork⟩ := hwork
    obtain ⟨front, back, rfl⟩ := List.append_of_mem ht
    simp only [isInWork, Bool.and_eq_true, Bool.not_eq_true'] at hinWork
    exact ⟨_, .goOn hinWork.2 (fun hqueued => by simp [hqueued] at hinWork) default⟩
  · simp only [IsDone, not_forall, Bool.not_eq_true] at hdone
    obtain ⟨t, ht, hopen⟩ := hdone
    obtain ⟨front, back, rfl⟩ := List.append_of_mem ht
    refine ⟨_, .goOn hopen (fun _ => ?_) default⟩
    have hnone : (front ++ back).countP isInWork = 0 := by
      refine List.countP_eq_zero.mpr fun u hu hinWork => hwork ⟨u, ?_, hinWork⟩
      grind
    rw [hnone]
    exact hslots (by simp)

/-- Every run can be brought to its end. -/
theorem Run.exists_isDone (h : Run m p n q) (hslots : 0 < m) : ∃ n' r, Run m p n' r ∧ r.IsDone := by
  induction hleft : q.stepsLeft using Nat.strong_induction_on generalizing n q with
  | _ left ih =>
      rcases exists_step (p := q) fun _ => hslots with hdone | ⟨r, hstep⟩
      · exact ⟨n, q, h, hdone⟩
      · exact ih r.stepsLeft (hleft ▸ stepsLeft_step hstep) (h.step hstep) rfl

/-! ## What holds at every moment -/

/-- Every file comes to the result of its text, and the disk is the one the run began with but for
the texts that finished jobs have written. -/
structure OnCourse (o : RunOptions) (files : List Bytes) (d : Disk) (p : Pool) : Prop where
  paths : p.tasks.map (·.path) = files
  options : ∀ t ∈ p.tasks, t.options = o
  leads : ∀ t ∈ p.tasks, ∀ data, d.read t.path = .ok data → t.job.Leads o t.path data
  places : d.SamePlaces p.disk
  own : ∀ t ∈ p.tasks, p.disk.root.fileAt? (d.aim t.path) =
    (t.job.written o).or (d.root.fileAt? (d.aim t.path))
  others : ∀ l, l ∉ files.map d.aim → p.disk.root.fileAt? l = d.root.fileAt? l

theorem onCourse_ofFiles (o : RunOptions) (files : List Bytes) (d : Disk) :
    OnCourse o files d (ofFiles o files d) where
  paths := by simp [ofFiles, Function.comp_def]
  options := by simp [ofFiles]
  leads := by simp [ofFiles, Job.Leads]
  places := .refl
  own := by simp [ofFiles, Job.written]
  others _ _ := rfl

/-- Of different files no two stand at one place. -/
theorem aim_ne {front back : List Task} {t u : Task}
    (hdistinct : ((front ++ t :: back).map fun t => d.aim t.path).Nodup)
    (hu : u ∈ front ++ back) : d.aim u.path ≠ d.aim t.path := by
  rw [List.map_append, List.map_cons, List.nodup_middle, List.nodup_cons, ← List.map_append]
    at hdistinct
  intro hsame
  exact hdistinct.1 (List.mem_map.mpr ⟨u, hu, hsame⟩)

theorem OnCourse.step (hcache : o.cache = none) (hexist : ∀ path ∈ files, ∃ data,
    d.read path = .ok data) (hdistinct : (files.map d.aim).Nodup) (h : OnCourse o files d p)
    (hstep : Step m p q) : OnCourse o files d q := by
  obtain ⟨hopen, -, now⟩ := hstep
  rename_i front t back here
  have ht : t ∈ front ++ t :: back := by simp
  obtain rfl : t.options = o := h.options t ht
  obtain ⟨data, hdata⟩ := hexist t.path (by rw [← h.paths]; exact List.mem_map_of_mem ht)
  have hwaiting : t.job.written t.options = none := Job.written_of_not_done hopen
  have hown := h.own t ht
  rw [hwaiting, Option.none_or, (Disk.read_eq_ok_iff.mp hdata).2] at hown
  have hread : here.read t.path = .ok data := h.places.read hdata hown
  have hleads := ((h.leads t ht data hdata).step hcache hopen hread now).1
  obtain ⟨hplaces, hfile⟩ := (h.leads t ht data hdata).disk_step hcache hopen hread now
  rw [h.places.aim] at hfile
  have hdistinct' : ((front ++ t :: back).map fun t => d.aim t.path).Nodup := by
    rw [← h.paths] at hdistinct
    simpa [Function.comp_def] using hdistinct
  have hmem {u : Task} (hu : u ∈ front ++ (t.step now here).1 :: back) :
      u = (t.step now here).1 ∨ u ∈ front ++ back := by
    grind
  have hold {u : Task} (hu : u ∈ front ++ back) : u ∈ front ++ t :: back := by grind
  refine ⟨?_, ?_, ?_, h.places.trans hplaces, ?_, ?_⟩
  · rw [← h.paths]
    simp [Task.step]
  · intro u hu
    rcases hmem hu with rfl | hu
    · rfl
    · exact h.options u (hold hu)
  · intro u hu text htext
    rcases hmem hu with rfl | hu
    · obtain rfl : data = text := Except.ok.inj (hdata.symm.trans htext)
      exact hleads
    · exact h.leads u (hold hu) text htext
  · intro u hu
    refine (hfile (d.aim u.path)).trans ?_
    rcases hmem hu with rfl | hu
    · refine (if_pos rfl).trans ?_
      change Option.or _ (here.root.fileAt? (d.aim t.path)) = _
      rw [hown, ← (Disk.read_eq_ok_iff.mp hdata).2]
      rfl
    · rw [if_neg (aim_ne hdistinct' hu)]
      exact h.own u (hold hu)
  · intro l hl
    have hne : l ≠ d.aim t.path := by
      rintro rfl
      refine hl (List.mem_map_of_mem ?_)
      rw [← h.paths]
      exact List.mem_map_of_mem ht
    exact (hfile l).trans ((if_neg hne).trans (h.others l hl))

theorem Run.onCourse (hcache : o.cache = none) (hexist : ∀ path ∈ files, ∃ data,
    d.read path = .ok data) (hdistinct : (files.map d.aim).Nodup)
    (h : Run m (ofFiles o files d) n p) : OnCourse o files d p := by
  induction h with
  | start => exact onCourse_ofFiles o files d
  | step before hstep ih => exact ih.step hcache hexist hdistinct hstep

end Pool

end VhdlStyle
