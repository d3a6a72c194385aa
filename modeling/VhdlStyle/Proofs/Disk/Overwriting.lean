import Mathlib.Data.List.DropRight
import VhdlStyle.Proofs.Disk.Files
import VhdlStyle.Proofs.Text.Splitting

/-! # Writing over files

A file that is replaced changes nothing around it: every other file keeps its content, every folder
stays a folder, and every path leads where it led before. A file that can be read can be written. -/

namespace VhdlStyle

/-! ## Trees -/

namespace FileTree

/-- The content of the file at a location. -/
def fileAt? (t : FileTree) (l : Location) : Option Bytes :=
  match t.get? l with
  | some (.file content) => some content
  | _ => none

/-- There is a folder at a location. -/
def hasFolder (t : FileTree) (l : Location) : Bool := (t.get? l).any isFolder

theorem fileAt?_eq_some_iff {t : FileTree} {l : Location} {content : Bytes} :
    t.fileAt? l = some content ↔ t.get? l = some (.file content) := by
  unfold fileAt?
  split <;> simp_all

theorem fileAt?_of_hasFolder {t : FileTree} {l : Location} (h : t.hasFolder l = true) :
    t.fileAt? l = none := by
  unfold hasFolder at h
  unfold fileAt?
  split
  · rename_i content hget
    rw [hget] at h
    cases h
  · rfl

/-- Below the top of a folder stands what stands in its entries. -/
theorem get?_folder_put {entries : List FileEntry} {name other : Bytes} {rest further : Location}
    {sub new : FileTree} (hsub : child? name entries = some sub) :
    ((folder entries).put (name :: rest) new).get? (other :: further) =
      if other = name then (sub.put rest new).get? further
      else (folder entries).get? (other :: further) := by
  by_cases hother : other = name
  · simp [put, get?, hother, hsub]
  · simp [put, get?, hother, child?_setChild_of_ne hother]

/-- Replacing a file changes what stands at its own location. -/
theorem get?_put_file {t : FileTree} {l : Location} {old : Bytes} (new : Bytes)
    (h : t.get? l = some (.file old)) (k : Location) :
    (t.put l (.file new)).fileAt? k = (if k = l then some new else t.fileAt? k) ∧
      (t.put l (.file new)).hasFolder k = t.hasFolder k := by
  induction l generalizing t k with
  | nil =>
      obtain rfl : t = .file old := by simpa [get?] using h
      cases k <;> simp [put, fileAt?, hasFolder, get?, isFolder]
  | cons name rest ih =>
      cases t with
      | file content => simp [get?] at h
      | folder entries =>
          obtain ⟨sub, hchild, hsub⟩ : ∃ sub, child? name entries = some sub ∧
              sub.get? rest = some (.file old) := by
            cases hchild : child? name entries with
            | none => simp [get?, hchild] at h
            | some sub => exact ⟨sub, rfl, by simpa [get?, hchild] using h⟩
          cases k with
          | nil => simp [put, fileAt?, hasFolder, get?, isFolder]
          | cons other further =>
              rw [fileAt?, hasFolder, get?_folder_put hchild]
              by_cases hother : other = name
              · subst hother
                simpa [fileAt?, hasFolder, get?, hchild] using ih hsub further
              · simp [hother, fileAt?, hasFolder]

end FileTree

/-! ## Disks -/

namespace Disk

/-- The disks have the same working folder, and folders and files stand at the same places. -/
structure SamePlaces (d d' : Disk) : Prop where
  workFolder : d'.workFolder = d.workFolder
  folders (l : Location) : d'.root.hasFolder l = d.root.hasFolder l
  files (l : Location) : (d'.root.fileAt? l).isSome = (d.root.fileAt? l).isSome

variable {d d' : Disk} {path data : Bytes}

theorem SamePlaces.refl : SamePlaces d d := ⟨rfl, fun _ => rfl, fun _ => rfl⟩

theorem SamePlaces.trans {later : Disk} (h : SamePlaces d d') (h' : SamePlaces d' later) :
    SamePlaces d later where
  workFolder := h'.workFolder.trans h.workFolder
  folders l := (h'.folders l).trans (h.folders l)
  files l := (h'.files l).trans (h.files l)

/-- What stands at a location decides whether the way may lead through it. -/
theorem enter_eq (d : Disk) (l : Location) (element : Bytes) :
    d.enter l element =
      if d.root.hasFolder l then
        if element.isEmpty || element == "." then .ok l
        else if element == ".." then .ok l.dropLast
        else if longestName < element.length then .error .nameTooLong
        else .ok (l ++ [element])
      else if (d.root.fileAt? l).isSome then .error .notFolder
      else .error .missing := by
  unfold enter FileTree.hasFolder FileTree.fileAt?
  cases d.root.get? l with
  | none => rfl
  | some t => cases t <;> rfl

theorem SamePlaces.locate (h : SamePlaces d d') (path : Bytes) :
    d'.locate path = d.locate path := by
  have henter : d'.enter = d.enter := by
    funext l element
    rw [enter_eq, enter_eq, h.folders, h.files]
  rw [Disk.locate, Disk.locate, henter, h.workFolder]

theorem SamePlaces.aim (h : SamePlaces d d') (path : Bytes) : d'.aim path = d.aim path :=
  aim_congr h.workFolder path

/-- A path is read when it leads to its place and a file is there. -/
theorem read_eq_ok_iff :
    d.read path = .ok data ↔
      d.locate path = .ok (d.aim path) ∧ d.root.fileAt? (d.aim path) = some data := by
  constructor
  · intro h
    have hholds := holds_of_read h
    refine ⟨?_, FileTree.fileAt?_eq_some_iff.mpr hholds⟩
    cases hlocate : d.locate path with
    | error reason => simp [read, find, hlocate, blame, bind, Except.bind] at h
    | ok l => rw [aim_of_locate hlocate]
  · rintro ⟨hlocate, hfile⟩
    have hget := FileTree.fileAt?_eq_some_iff.mp hfile
    simp [read, find, hlocate, hget, blame, bind, Except.bind]

/-- Where a file stood there still stands one, with the content that is there now. -/
theorem SamePlaces.read {before : Bytes} (h : SamePlaces d d') (hread : d.read path = .ok before)
    (hfile : d'.root.fileAt? (d.aim path) = some data) : d'.read path = .ok data := by
  rw [read_eq_ok_iff] at hread ⊢
  rw [h.locate, h.aim]
  exact ⟨hread.1, hfile⟩

/-- An empty element stays in a folder. -/
theorem hasFolder_of_enter_empty {l l' : Location} (h : d.enter l [] = .ok l') :
    d.root.hasFolder l' = true := by
  rw [enter_eq] at h
  split at h
  · cases h
    assumption
  · split at h <;> cases h

/-- A path that ends with a slash leads to a folder. -/
theorem hasFolder_of_locate_slash {l : Location} (h : d.locate (path ++ [('/' : UInt8)]) = .ok l) :
    d.root.hasFolder l = true := by
  have helements : Path.elements (path ++ [('/' : UInt8)]) = Path.elements path ++ [[]] :=
    Bytes.split_concat '/' path []
  unfold locate at h
  split at h
  · cases h
  split at h
  · cases h
  rw [helements, List.foldlM_append] at h
  cases hbefore : (Path.elements path).foldlM d.enter
      (if Path.isAbsolute (path ++ [('/' : UInt8)]) then [] else d.workFolder) with
  | error reason => simp [hbefore, bind, Except.bind] at h
  | ok before =>
      simp only [hbefore, bind, Except.bind, List.foldlM_cons, List.foldlM_nil] at h
      cases hlast : d.enter before [] with
      | error reason => simp [hlast] at h
      | ok last =>
          obtain rfl : last = l := by simpa [hlast, pure, Except.pure] using h
          exact hasFolder_of_enter_empty hlast

theorem bare_of_read (h : d.read path = .ok data) : bare path = path := by
  obtain ⟨hlocate, hfile⟩ := read_eq_ok_iff.mp h
  rcases List.eq_nil_or_concat' path with rfl | ⟨init, last, rfl⟩
  · rfl
  · have hlast : (last == ('/' : UInt8)) = false := by
      refine beq_false_of_ne fun hslash => ?_
      rw [hslash] at hlocate hfile
      rw [FileTree.fileAt?_of_hasFolder (hasFolder_of_locate_slash hlocate)] at hfile
      cases hfile
    have htrim : Bytes.trimRight (· == ('/' : UInt8)) (init ++ [last]) = init ++ [last] :=
      List.rdropWhile_concat_neg _ _ _ (by simp [hlast])
    rw [bare, htrim, Bytes.orElse]
    simp

/-- The disk after the file at the place of a path was replaced. -/
def overwrite (d : Disk) (path content : Bytes) : Disk :=
  { d with root := d.root.put (d.aim path) (.file content) }

/-- A file that can be read can be written. -/
theorem write_of_read (h : d.read path = .ok data) (content : Bytes) :
    d.write path content = .ok (d.overwrite path content) := by
  obtain ⟨hlocate, hfile⟩ := read_eq_ok_iff.mp h
  have hget := FileTree.fileAt?_eq_some_iff.mp hfile
  simp [write, place, bare_of_read h, hlocate, hget, bind, Except.bind, overwrite]

theorem fileAt?_overwrite (h : d.read path = .ok data) (content : Bytes) (l : Location) :
    (d.overwrite path content).root.fileAt? l =
      if l = d.aim path then some content else d.root.fileAt? l :=
  (FileTree.get?_put_file content (holds_of_read h) l).1

theorem samePlaces_overwrite (h : d.read path = .ok data) (content : Bytes) :
    SamePlaces d (d.overwrite path content) where
  workFolder := rfl
  folders l := (FileTree.get?_put_file content (holds_of_read h) l).2
  files l := by
    rw [fileAt?_overwrite h]
    split
    · rename_i hl
      rw [hl, (read_eq_ok_iff.mp h).2]
      rfl
    · rfl

end Disk

end VhdlStyle
