import VhdlStyle.Disk.Basic

/-! # The files of a disk

Which place a path names depends on the working folder and the path alone; the tree only decides
whether the way there is open. What an operation does to a disk can therefore be said place by
place: writing changes the file at one place, and making folders changes none. -/

namespace VhdlStyle

/-! ## Trees -/

namespace FileTree

@[simp] theorem child?_setChild_self (name : Bytes) (t : FileTree) (entries : List FileEntry) :
    child? name (setChild name t entries) = some t := by
  induction entries with
  | nil => simp [setChild, child?]
  | cons entry rest ih =>
      obtain ⟨n, old⟩ := entry
      by_cases hname : n = name
      · simp [setChild, child?, hname]
      · by_cases hless : n < name
        · simpa [setChild, child?, hname, hless] using ih
        · simp [setChild, child?, hname, hless]

theorem child?_setChild_of_ne {name other : Bytes} (hother : other ≠ name) (t : FileTree)
    (entries : List FileEntry) : child? other (setChild name t entries) = child? other entries := by
  induction entries with
  | nil => simp [setChild, child?, hother.symm]
  | cons entry rest ih =>
      obtain ⟨n, old⟩ := entry
      by_cases hname : n = name
      · simp [setChild, child?, hname, hother.symm]
      · by_cases hless : n < name
        · simp only [setChild, child?, beq_iff_eq, hname, hless, if_true, if_false, ih]
        · simp [setChild, child?, hname, hless, hother.symm]

/-- A file that is there after a tree was put somewhere was there before, or is a file of that
tree. -/
theorem file_of_put {t new : FileTree} {l k : Location} {content : Bytes}
    (h : (t.put l new).get? k = some (.file content)) :
    t.get? k = some (.file content) ∨ ∃ s, k = l ++ s ∧ new.get? s = some (.file content) := by
  induction l generalizing t k with
  | nil => exact .inr ⟨k, rfl, by simpa [put] using h⟩
  | cons name rest ih =>
      match t, k with
      | .file _, _ => exact .inl h
      | .folder _, [] => simp [put, get?] at h
      | .folder entries, other :: further =>
          by_cases hother : other = name
          · subst hother
            have hbelow : (((child? other entries).getD (.folder [])).put rest new).get? further =
                some (.file content) := by simpa [put, get?] using h
            rcases ih hbelow with hold | ⟨s, hs, hnew⟩
            · refine .inl ?_
              cases hchild : child? other entries with
              | none =>
                  rw [hchild, Option.getD_none] at hold
                  cases further <;> simp [get?, child?] at hold
              | some child =>
                  rw [hchild, Option.getD_some] at hold
                  simpa [get?, hchild] using hold
            · exact .inr ⟨s, by rw [hs, List.cons_append], hnew⟩
          · refine .inl ?_
            simpa [put, get?, child?_setChild_of_ne hother] using h

end FileTree

/-! ## Places -/

namespace Disk

/-- One element further from a location, by name alone. -/
def walk (l : Location) (element : Bytes) : Location :=
  if element.isEmpty || element == "." then l
  else if element == ".." then l.dropLast
  else l ++ [element]

/-- The place a path names, by name alone. -/
def aim (d : Disk) (path : Bytes) : Location :=
  (Path.elements path).foldl walk (if Path.isAbsolute path then [] else d.workFolder)

/-- There is a file at the place of a path. -/
def Holds (d : Disk) (path content : Bytes) : Prop :=
  d.root.get? (d.aim path) = some (.file content)

theorem aim_congr {d d' : Disk} (h : d'.workFolder = d.workFolder) (path : Bytes) :
    d'.aim path = d.aim path := by rw [aim, aim, h]

theorem walk_of_enter {d : Disk} {l l' : Location} {element : Bytes}
    (h : d.enter l element = .ok l') : l' = walk l element := by
  unfold enter at h
  unfold walk
  split at h
  · cases h
  · cases h
  · grind

theorem walks_of_enter {d : Disk} {elements : List Bytes} {start l : Location}
    (h : elements.foldlM d.enter start = .ok l) : l = elements.foldl walk start := by
  induction elements generalizing start with
  | nil =>
      cases h
      rfl
  | cons element rest ih =>
      rw [List.foldlM_cons] at h
      cases hnext : d.enter start element with
      | error reason => simp [hnext, bind, Except.bind] at h
      | ok next =>
          rw [List.foldl_cons, ← walk_of_enter hnext]
          exact ih (by simpa [hnext, bind, Except.bind] using h)

theorem aim_of_locate {d : Disk} {path : Bytes} {l : Location} (h : d.locate path = .ok l) :
    l = d.aim path := by
  unfold locate at h
  split at h
  · cases h
  · split at h
    · cases h
    · exact walks_of_enter h

/-- What is read from a path is in the file at its place. -/
theorem holds_of_read {d : Disk} {path content : Bytes} (h : d.read path = .ok content) :
    d.Holds path content := by
  unfold read find at h
  cases hlocate : d.locate path with
  | error reason => simp [hlocate, blame, bind, Except.bind] at h
  | ok l =>
      have hl := aim_of_locate hlocate
      subst hl
      cases hget : d.root.get? (d.aim path) with
      | none => simp [hlocate, hget, blame, bind, Except.bind] at h
      | some t =>
          cases t with
          | folder entries => simp [hlocate, hget, blame, bind, Except.bind] at h
          | file found =>
              have hfound : found = content := by
                simpa [hlocate, hget, blame, bind, Except.bind] using h
              rw [Holds, hget, hfound]

/-! ## Operations -/

/-- The working folder is the same, and every file was there before or is one of the new ones. -/
structure Grew (new : Location → Bytes → Prop) (d d' : Disk) : Prop where
  workFolder : d'.workFolder = d.workFolder
  files : ∀ l content, d'.root.get? l = some (.file content) →
    d.root.get? l = some (.file content) ∨ new l content

section Grew

variable {new : Location → Bytes → Prop} {d d' later : Disk}

theorem Grew.refl : Grew new d d := ⟨rfl, fun _ _ h => .inl h⟩

theorem Grew.trans (h : Grew new d d') (h' : Grew new d' later) : Grew new d later where
  workFolder := h'.workFolder.trans h.workFolder
  files l content hfile := (h'.files l content hfile).elim (h.files l content) .inr

theorem Grew.mono {more : Location → Bytes → Prop} (h : Grew new d d')
    (hmore : ∀ l content, new l content → more l content) : Grew more d d' :=
  ⟨h.workFolder, fun l content hfile => (h.files l content hfile).imp_right (hmore l content)⟩

theorem Grew.aim (h : Grew new d d') (path : Bytes) : d'.aim path = d.aim path :=
  aim_congr h.workFolder path

theorem Grew.holds (h : Grew new d d') {path content : Bytes} (hfile : d'.Holds path content) :
    d.Holds path content ∨ new (d.aim path) content := by
  rw [Holds, h.aim] at hfile
  exact h.files _ _ hfile

end Grew

/-- Writing changes the file at the place of the path. -/
theorem grew_of_write {d d' : Disk} {path content : Bytes} (h : d.write path content = .ok d') :
    Grew (fun l text => l = d.aim path ∧ text = content) d d' := by
  unfold write at h
  cases hplace : d.place path with
  | error reason => simp [hplace] at h
  | ok l =>
      have hl : l = d.aim path := by
        unfold place at hplace
        cases hlocate : d.locate (bare path) with
        | error reason => simp [hlocate, bind, Except.bind] at hplace
        | ok found =>
            simp only [hlocate, bind, Except.bind] at hplace
            split at hplace
            · cases hplace
            · split at hplace
              · rename_i hbare
                cases hplace
                rw [← eq_of_beq hbare]
                exact aim_of_locate hlocate
              · cases hplace
      have hd' : d' = { d with root := d.root.put l (.file content) } := by
        simpa [hplace, eq_comm] using h
      subst hd'
      refine ⟨rfl, fun k text hfile => ?_⟩
      rcases FileTree.file_of_put hfile with hold | ⟨s, hs, hnew⟩
      · exact .inl hold
      · refine .inr ?_
        cases s with
        | nil =>
            exact ⟨by rw [hs, hl, List.append_nil], by simpa [FileTree.get?, eq_comm] using hnew⟩
        | cons name rest => simp [FileTree.get?] at hnew

theorem grew_of_makeFolder {d d' : Disk} {path : Bytes} (h : d.makeFolder path = .ok d') :
    Grew (fun _ _ => False) d d' := by
  unfold makeFolder at h
  cases hlocate : d.locate (bare path) with
  | error reason => simp [hlocate, bind, Except.bind] at h
  | ok l =>
      simp only [hlocate, bind, Except.bind] at h
      split at h
      · cases h
      · cases h
        refine ⟨rfl, fun k text hfile => ?_⟩
        rcases FileTree.file_of_put hfile with hold | ⟨s, -, hnew⟩
        · exact .inl hold
        · cases s <;> simp [FileTree.get?, FileTree.child?] at hnew

/-- A folder that could not be made may be there already. -/
theorem grew_of_made {d d' : Disk} {path : Bytes} (h : (match d.makeFolder path with
    | .ok d => Except.ok d
    | .error reason =>
      match d.find path with
      | .ok (.folder _) => .ok d
      | _ => .error (Fault.mk "mkdir" path reason)) = .ok d') : Grew (fun _ _ => False) d d' := by
  split at h
  · rename_i hmade
    cases h
    exact grew_of_makeFolder hmade
  · split at h
    · cases h
      exact .refl
    · cases h

theorem grew_of_makeFoldersN {depth : Nat} {d d' : Disk} {path : Bytes}
    (h : makeFoldersN depth path d = .ok d') : Grew (fun _ _ => False) d d' := by
  induction depth generalizing d d' path with
  | zero =>
      cases h
      exact .refl
  | succ depth ih =>
      rw [makeFoldersN] at h
      split at h
      · cases h
        exact .refl
      · cases h
      · simp only [bind, Except.bind] at h
        split at h
        · exact grew_of_made h
        · split at h
          · cases h
          · rename_i above habove
            exact (ih habove).trans (grew_of_made h)

/-- Making folders changes no file. -/
theorem grew_of_makeFolders {d d' : Disk} {path : Bytes} (h : d.makeFolders path = .ok d') :
    Grew (fun _ _ => False) d d' := grew_of_makeFoldersN h

end Disk

end VhdlStyle
