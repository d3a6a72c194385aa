import Mathlib.Data.List.Forall2
import VhdlStyle.Proofs.Run.Pool

/-! # Every schedule gives the same results

However the steps of different files follow each other, a run without a cache ends with the results
of the run that works on one file after the other, and it changes those files only whose new text
it was to write. -/

namespace VhdlStyle

namespace Pool

variable {o : RunOptions} {files : List Bytes} {d : Disk} {m n : Nat} {p q : Pool}

/-! ## One file after the other -/

/-- One task goes on while the others wait. -/
theorem Run.steps {front back : List Task} {path : Bytes} {job : Job}
    (hfree : (front ++ back).countP isInWork < m) (now : Instant) (k : Nat)
    (h : Run m p n ⟨front ++ ⟨o, path, job⟩ :: back, d⟩) :
    ∃ n', Run m p n' ⟨front ++ ⟨o, path, (job.steps o now path k d).1⟩ :: back,
      (job.steps o now path k d).2⟩ := by
  induction k generalizing job d n with
  | zero => exact ⟨n, h⟩
  | succ k ih =>
      rw [Job.steps_succ]
      by_cases hopen : job.isDone = false
      · have hstep := @Step.goOn m front ⟨o, path, job⟩ back d hopen (fun _ => hfree) now
        rw [Task.step_eq] at hstep
        exact ih (h.step hstep)
      · rw [Job.step_of_isDone (by simpa using hopen)]
        exact ih h

/-- The run that takes up a file when the file before it is done is one of the schedules. -/
theorem Run.formatFiles (now : Instant) {front : List Task} {rest : List Bytes}
    (hslots : rest ≠ [] → 0 < m) (hfront : ∀ t ∈ front, t.job.isDone = true)
    (h : Run m p n ⟨front ++ rest.map fun path => ⟨o, path, .queued⟩, d⟩) :
    ∃ n' later, Run m p n' ⟨front ++ later, (o.formatFiles now rest d).2⟩ ∧
      (∀ t ∈ later, t.job.isDone = true) ∧
      later.filterMap (fun t => t.job.result?) = (o.formatFiles now rest d).1 := by
  induction rest generalizing front d n with
  | nil => exact ⟨n, [], h, by simp, rfl⟩
  | cons path rest ih =>
      have hfree : (front ++ rest.map fun path => Task.mk o path .queued).countP isInWork < m := by
        have hnone :
            (front ++ rest.map fun path => Task.mk o path .queued).countP isInWork = 0 := by
          refine List.countP_eq_zero.mpr fun t ht => ?_
          rcases List.mem_append.mp ht with ht | ht
          · simp [isInWork, hfront t ht]
          · obtain ⟨path, -, rfl⟩ := List.mem_map.mp ht
            simp [isInWork]
        rw [hnone]
        exact hslots (List.cons_ne_nil path rest)
      obtain ⟨n₁, hfirst⟩ := Run.steps hfree now Job.stages h
      obtain ⟨r, hr⟩ : ∃ r, (Job.steps o now path Job.stages .queued d).1 = .done r :=
        Job.exists_of_isDone (Job.isDone_steps (Job.stepsLeft_le .queued) now d)
      have hfile : Job.formatFile o now path d =
          (r, (Job.steps o now path Job.stages .queued d).2) := by
        change ((Job.steps o now path Job.stages .queued d).1.result?.getD _, _) = _
        rw [hr]
        rfl
      have hlast : ∀ t ∈ front ++ [Task.mk o path (.done r)], t.job.isDone = true := by
        simpa [or_imp, forall_and, Job.isDone] using hfront
      rw [hr] at hfirst
      obtain ⟨n₂, later, hrun, hlater, hresults⟩ := ih
        (fun _ => Nat.zero_lt_of_lt hfree) hlast (n := n₁) (by simpa using hfirst)
      have hfiles : o.formatFiles now (path :: rest) d =
          (r :: (o.formatFiles now rest (Job.formatFile o now path d).2).1,
            (o.formatFiles now rest (Job.formatFile o now path d).2).2) := by
        rw [RunOptions.formatFiles, hfile]
      rw [hfiles, hfile]
      refine ⟨n₂, ⟨o, path, .done r⟩ :: later, by simpa using hrun, ?_, ?_⟩
      · exact List.forall_mem_cons.mpr ⟨rfl, hlater⟩
      · rw [← hresults]
        rfl

/-! ## The end of a run -/

/-- What is so of a file and its result when the run is over. -/
structure Finished (o : RunOptions) (d d' : Disk) (path : Bytes) (r : FileResult) : Prop where
  result : ∃ data, d.read path = .ok data ∧
    ∀ now other, r = (Job.formatText o now path data other).1
  written : o.mode = .write → r.fault = none → r.changed = true → d'.read path = .ok r.output
  kept : o.mode ≠ .write ∨ r.fault ≠ none ∨ r.changed = false → d'.read path = d.read path

/-- The results of finished tasks stand beside their files. -/
theorem forall₂_results {R : Bytes → FileResult → Prop} {tasks : List Task}
    (h : ∀ t ∈ tasks, ∃ r, t.job = .done r ∧ R t.path r) :
    List.Forall₂ R (tasks.map (·.path)) (tasks.filterMap fun t => t.job.result?) := by
  induction tasks with
  | nil => exact .nil
  | cons t tasks ih =>
      obtain ⟨⟨r, hr, hR⟩, hrest⟩ := List.forall_mem_cons.mp h
      have hresult : t.job.result? = some r := by rw [hr]; rfl
      simp only [List.map_cons, List.filterMap_cons, hresult]
      exact .cons hR (ih hrest)

theorem OnCourse.finished (hcache : o.cache = none) (hexist : ∀ path ∈ files, ∃ data,
    d.read path = .ok data) (h : OnCourse o files d p) (hdone : p.IsDone) :
    List.Forall₂ (Finished o d p.disk) files p.results := by
  rw [← h.paths]
  refine forall₂_results fun t ht => ?_
  obtain ⟨r, hr⟩ := Job.exists_of_isDone (hdone t ht)
  obtain ⟨data, hdata⟩ := hexist t.path (by rw [← h.paths]; exact List.mem_map_of_mem ht)
  have hfile := (Disk.read_eq_ok_iff.mp hdata).2
  have hown := h.own t ht
  rw [hr, Job.written, hfile] at hown
  refine ⟨r, hr, ?_, ?_, ?_⟩
  · refine ⟨data, hdata, fun now other => ?_⟩
    rcases h.leads t ht data hdata with hqueued | hsettled
    · rw [hr] at hqueued
      cases hqueued
    · rw [hr, Job.settled_done, Job.settled_loaded hcache data now other] at hsettled
      exact Option.some.inj hsettled
  · intro hmode hfault hchanged
    have hwrites : Job.writes o r = true := by
      simp [Job.writes, hmode, hchanged, FileResult.failed, hfault]
    rw [hwrites] at hown
    exact h.places.read hdata hown
  · intro hkept
    have hwrites : Job.writes o r = false := by
      rcases hkept with hmode | hfault | hchanged
      · simp [Job.writes, hmode]
      · simp [Job.writes, FileResult.failed, Option.isSome_iff_ne_none.mpr hfault]
      · simp [Job.writes, hchanged]
    rw [hwrites] at hown
    rw [hdata]
    exact h.places.read hdata hown

/-- A file of the disk has one result only, whatever the disk becomes. -/
theorem Finished.unique {d₁ d₂ : Disk} {path : Bytes} {r₁ r₂ : FileResult}
    (h₁ : Finished o d d₁ path r₁) (h₂ : Finished o d d₂ path r₂) : r₁ = r₂ := by
  obtain ⟨data₁, hread₁, hresult₁⟩ := h₁.result
  obtain ⟨data₂, hread₂, hresult₂⟩ := h₂.result
  obtain rfl : data₁ = data₂ := Except.ok.inj (hread₁.symm.trans hread₂)
  exact (hresult₁ default {}).trans (hresult₂ default {}).symm

theorem eq_of_finished {d₁ d₂ : Disk} {rs₁ rs₂ : List FileResult}
    (h₁ : List.Forall₂ (Finished o d d₁) files rs₁)
    (h₂ : List.Forall₂ (Finished o d d₂) files rs₂) : rs₁ = rs₂ := by
  induction h₁ generalizing rs₂ with
  | nil =>
      cases h₂
      rfl
  | cons hr₁ _ ih =>
      cases h₂ with
      | cons hr₂ hrest => rw [hr₁.unique hr₂, ih hrest]

/-- One file after the other comes to the same results as any schedule would. -/
theorem finished_formatFiles (hcache : o.cache = none) (hexist : ∀ path ∈ files, ∃ data,
    d.read path = .ok data) (hdistinct : (files.map d.aim).Nodup) (now : Instant) :
    List.Forall₂ (Finished o d (o.formatFiles now files d).2) files
      (o.formatFiles now files d).1 := by
  have hstart : Run 1 (ofFiles o files d) 0
      ⟨[] ++ files.map fun path => ⟨o, path, .queued⟩, d⟩ := .start
  obtain ⟨n, tasks, hrun, hdone, hresults⟩ :=
    hstart.formatFiles now (fun _ => Nat.one_pos) (by simp)
  rw [List.nil_append] at hrun
  rw [← hresults]
  exact (hrun.onCourse hcache hexist hdistinct).finished hcache hexist hdone

end Pool

open Pool in
/-- However the steps of different files follow each other, a run without a cache comes to an end,
with the results of the files one after the other, each of which its own path and text decide. What
it leaves on the disk is what was there, but for the changed files it was to write. -/
theorem parallel_run_is_sequential (o : RunOptions) (hcache : o.cache = none) (files : List Bytes)
    (d : Disk) (hexist : ∀ path ∈ files, ∃ data, d.read path = .ok data)
    (hdistinct : (files.map d.aim).Nodup) (processors : Nat) (hprocessors : 0 < processors)
    (jobs : Int) (n : Nat) (p : Pool)
    (hrun : Run (slots processors jobs files.length) (ofFiles o files d) n p) :
    n ≤ Job.stages * files.length ∧
    (p.IsDone ∨ ∃ q, Step (slots processors jobs files.length) p q) ∧
    (p.IsDone →
      (∀ now, p.results = (o.formatFiles now files d).1) ∧
      List.Forall₂ (Finished o d p.disk) files p.results ∧
      d.SamePlaces p.disk ∧
      ∀ l, l ∉ files.map d.aim → p.disk.root.fileAt? l = d.root.fileAt? l) := by
  have hcourse := hrun.onCourse hcache hexist hdistinct
  have hslots : files ≠ [] → 0 < slots processors jobs files.length := by
    intro hfiles
    have := List.length_pos_iff.mpr hfiles
    unfold slots
    split <;> omega
  refine ⟨?_, exists_step ?_, fun hdone => ⟨fun now => ?_, ?_, hcourse.places, hcourse.others⟩⟩
  · have hlength := hrun.length_add_stepsLeft_le
    rw [stepsLeft_ofFiles] at hlength
    omega
  · intro htasks
    refine hslots fun hfiles => htasks ?_
    exact List.map_eq_nil_iff.mp (hcourse.paths.trans hfiles)
  · exact eq_of_finished (hcourse.finished hcache hexist hdone)
      (finished_formatFiles hcache hexist hdistinct now)
  · exact hcourse.finished hcache hexist hdone

open Pool in
/-- Two files that are written are both in work before either is done; one of them has an error. -/
theorem parallel_run_is_sequential_of_two_files :
    let d : Disk := { root := .folder [.mk "a.vhd" (.file "entity e is end;"),
      .mk "b.vhd" (.file "entity e")] }
    let o : RunOptions := { mode := .write }
    let files : List Bytes := ["a.vhd", "b.vhd"]
    let both : Pool :=
      ⟨[⟨o, "a.vhd", .loaded "entity e is end;"⟩, ⟨o, "b.vhd", .loaded "entity e"⟩], d⟩
    Run (slots 8 2 files.length) (ofFiles o files d) 2 both ∧
    ∃ n p, Run (slots 8 2 files.length) (ofFiles o files d) n p ∧ p.IsDone ∧
      n ≤ Job.stages * files.length ∧
      (∀ now, p.results = (o.formatFiles now files d).1) ∧
      List.Forall₂ (Finished o d p.disk) files p.results ∧
      d.SamePlaces p.disk ∧
      ∀ l, l ∉ files.map d.aim → p.disk.root.fileAt? l = d.root.fileAt? l := by
  intro d o files both
  have hfirst : Step 2 (ofFiles o files d)
      ⟨[⟨o, "a.vhd", .loaded "entity e is end;"⟩, ⟨o, "b.vhd", .queued⟩], d⟩ :=
    @Step.goOn 2 [] ⟨o, "a.vhd", .queued⟩ [⟨o, "b.vhd", .queued⟩] d rfl (fun _ => by decide) default
  have hsecond :
      Step 2 ⟨[⟨o, "a.vhd", .loaded "entity e is end;"⟩, ⟨o, "b.vhd", .queued⟩], d⟩ both :=
    @Step.goOn 2 [⟨o, "a.vhd", .loaded "entity e is end;"⟩] ⟨o, "b.vhd", .queued⟩ [] d rfl
      (fun _ => by decide) default
  have hboth : Run (slots 8 2 files.length) (ofFiles o files d) 2 both :=
    (Run.start.step hfirst).step hsecond
  obtain ⟨n, p, hrun, hdone⟩ := hboth.exists_isDone (by decide)
  have hexist : ∀ path ∈ files, ∃ data, d.read path = .ok data := by
    simp only [files, List.forall_mem_cons]
    exact ⟨⟨"entity e is end;", by rfl⟩, ⟨"entity e", by rfl⟩, by simp⟩
  obtain ⟨hlength, -, hend⟩ := parallel_run_is_sequential o rfl files d hexist (by decide) 8
    (by decide) 2 n p hrun
  exact ⟨hboth, n, p, hrun, hdone, hlength, hend hdone⟩

end VhdlStyle
