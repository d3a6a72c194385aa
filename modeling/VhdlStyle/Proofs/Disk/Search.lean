import Mathlib.Data.List.Basic
import VhdlStyle.Disk.Sources
import VhdlStyle.Proofs.Disk.Paths
import VhdlStyle.Proofs.Text.LowerCase

/-! # Finding every source once

In a tree whose names are names, the search below a folder meets each place once and gives it the
cleaned path that leads there. Sorting leaves one list for each set of files, so neither the order
nor the repetition of the paths shows in it. -/

namespace VhdlStyle

/-! ## Trees with names -/

/-- The name of an entry. -/
def FileEntry.name : FileEntry → Bytes
  | .mk name _ => name

/-- What the name stands for. -/
def FileEntry.tree : FileEntry → FileTree
  | .mk _ tree => tree

namespace FileTree

/-- In every folder the names can be names of files, and no two are the same. -/
inductive Proper : FileTree → Prop
  | file (content : Bytes) : Proper (.file content)
  | folder {entries : List FileEntry} (hdistinct : (entries.map FileEntry.name).Nodup)
      (hnames : ∀ e ∈ entries, Path.Ordinary e.name) (htrees : ∀ e ∈ entries, Proper e.tree) :
      Proper (.folder entries)

variable {t t' : FileTree} {entries : List FileEntry}

theorem proper_folder_iff : (folder entries).Proper ↔ (entries.map FileEntry.name).Nodup ∧
    ∀ e ∈ entries, Path.Ordinary e.name ∧ e.tree.Proper := by
  constructor
  · rintro (_ | ⟨hdistinct, hnames, htrees⟩)
    exact ⟨hdistinct, fun e he => ⟨hnames e he, htrees e he⟩⟩
  · rintro ⟨hdistinct, h⟩
    exact .folder hdistinct (fun e he => (h e he).1) fun e he => (h e he).2

/-- Among entries with different names each is found under its own. -/
theorem child?_eq_some_iff (hdistinct : (entries.map FileEntry.name).Nodup) {name : Bytes} :
    child? name entries = some t ↔ ∃ e ∈ entries, e.name = name ∧ e.tree = t := by
  induction entries with
  | nil => simp [child?]
  | cons entry rest ih =>
      obtain ⟨first, child⟩ := entry
      rw [List.map_cons, List.nodup_cons] at hdistinct
      by_cases hfirst : first = name
      · subst hfirst
        have hother : ¬∃ e ∈ rest, e.name = first ∧ e.tree = t := by
          rintro ⟨e, he, hname, -⟩
          exact hdistinct.1 (List.mem_map.mpr ⟨e, he, hname⟩)
        rw [List.exists_mem_cons_iff, or_iff_left hother]
        simp [child?, FileEntry.name, FileEntry.tree]
      · rw [List.exists_mem_cons_iff, ← ih hdistinct.2]
        simp [child?, hfirst, FileEntry.name]

theorem Proper.get? (h : t.Proper) {l : Location} (hget : t.get? l = some t') :
    t'.Proper ∧ ∀ name ∈ l, Path.Ordinary name := by
  induction h generalizing l with
  | file content =>
      cases l with
      | nil =>
          cases hget
          exact ⟨.file content, by simp⟩
      | cons name rest => cases hget
  | folder hdistinct hnames htrees ih =>
      cases l with
      | nil =>
          cases hget
          exact ⟨.folder hdistinct hnames htrees, by simp⟩
      | cons name rest =>
          rw [FileTree.get?] at hget
          split at hget
          · cases hget
          · rename_i child hchild
            obtain ⟨e, he, rfl, rfl⟩ := (child?_eq_some_iff hdistinct).mp hchild
            have hbelow := ih e he hget
            exact ⟨hbelow.1, List.forall_mem_cons.mpr ⟨hnames e he, hbelow.2⟩⟩

end FileTree

/-! ## The search below a folder -/

namespace Sources

/-- The path to a place, made one name at a time. -/
def descend (path : Bytes) (l : Location) : Bytes := l.foldl (fun p name => Path.join [p, name]) path

/-- No folder on the way is hidden; the name at the end may begin with a dot. -/
def Visible (l : Location) : Prop := ∀ folder ∈ l.dropLast, folder.head? ≠ some ('.' : UInt8)

variable {path file : Bytes} {t : FileTree} {entries : List FileEntry}

theorem mem_belowEntries_iff : file ∈ belowEntries path entries ↔
    ∃ e ∈ entries, isHidden e.name e.tree = false ∧
      file ∈ below (Path.join [path, e.name]) e.tree := by
  induction entries with
  | nil => simp [belowEntries]
  | cons entry rest ih =>
      obtain ⟨name, tree⟩ := entry
      rw [belowEntries, List.mem_append, ih, List.exists_mem_cons_iff]
      refine or_congr_left ?_
      cases hhidden : isHidden name tree <;> simp [FileEntry.name, FileEntry.tree, hhidden]

/-- Going into a folder that is not hidden. -/
theorem visible_cons_iff {name : Bytes} {l : Location} {content : Bytes}
    (hfile : t.get? l = some (.file content)) :
    Visible (name :: l) ↔ isHidden name t = false ∧ Visible l := by
  cases l with
  | nil =>
      obtain rfl : t = .file content := by simpa [FileTree.get?] using hfile
      simp [Visible, isHidden, FileTree.isFolder]
  | cons next rest =>
      cases t with
      | file other => cases hfile
      | folder entries => simp [Visible, isHidden, FileTree.isFolder]

/-- The search finds the sources at the places it can see. -/
theorem mem_below_iff (ht : t.Proper) : file ∈ below path t ↔
    ∃ l content, t.get? l = some (.file content) ∧ Visible l ∧
      isSource (descend path l) = true ∧ file = Path.clean (descend path l) := by
  induction ht generalizing path with
  | file content =>
      constructor
      · intro hmem
        refine ⟨[], content, rfl, by simp [Visible], ?_⟩
        rw [below] at hmem
        split at hmem
        · exact ⟨by assumption, List.mem_singleton.mp hmem⟩
        · cases hmem
      · rintro ⟨l, _, hfile, -, hsource, rfl⟩
        cases l with
        | nil =>
            have hhere : isSource path = true := hsource
            rw [below, if_pos hhere]
            exact List.mem_singleton_self _
        | cons name rest => cases hfile
  | folder hdistinct hnames htrees ih =>
      rw [below, mem_belowEntries_iff]
      constructor
      · rintro ⟨e, he, hhidden, hmem⟩
        obtain ⟨l, content, hfile, hvisible, hsource, rfl⟩ := (ih e he).mp hmem
        have hchild := (FileTree.child?_eq_some_iff hdistinct).mpr ⟨e, he, rfl, rfl⟩
        refine ⟨e.name :: l, content, ?_, ?_, hsource, rfl⟩
        · rw [FileTree.get?, hchild]
          exact hfile
        · exact (visible_cons_iff hfile).mpr ⟨hhidden, hvisible⟩
      · rintro ⟨l, content, hfile, hvisible, hsource, rfl⟩
        cases l with
        | nil => cases hfile
        | cons name rest =>
            rw [FileTree.get?] at hfile
            split at hfile
            · cases hfile
            · rename_i child hchild
              obtain ⟨e, he, rfl, rfl⟩ := (FileTree.child?_eq_some_iff hdistinct).mp hchild
              rw [visible_cons_iff hfile] at hvisible
              exact ⟨e, he, hvisible.1, (ih e he).mpr ⟨rest, content, hfile, hvisible.2, hsource, rfl⟩⟩

/-! ## Paths of what is found -/

/-- Step by step or at once, cleaning gives the same path. -/
theorem descend_eq {l : Location} (hpath : path ≠ []) (hne : l ≠ [])
    (hnames : ∀ name ∈ l, Path.Ordinary name) :
    descend path l = Path.clean (path ++ ('/' : UInt8) :: Bytes.join "/" l) := by
  induction l generalizing path with
  | nil => exact absurd rfl hne
  | cons name rest ih =>
      rw [List.forall_mem_cons] at hnames
      have hfirst := Path.join_pair hpath hnames.1.nonempty
      cases rest with
      | nil => simpa [descend, Bytes.join] using hfirst
      | cons next others =>
          have hstep : descend path (name :: next :: others) =
              descend (Path.join [path, name]) (next :: others) := rfl
          rw [hstep, hfirst, ih (Path.clean_ne_nil _) (List.cons_ne_nil _ _) hnames.2,
            Path.clean_clean_append (by simp)]
          rw [Bytes.join_cons_cons, List.append_assoc, List.cons_append]

/-! ## Names of sources -/

/-- A dot and one of two endings close the name, in any letter case. -/
def SourceName (name : Bytes) : Prop :=
  ∃ stem ending, name = stem ++ ('.' : UInt8) :: ending ∧
    (ending.map Bytes.lowerByte = Bytes.ofString "vhd" ∨
      ending.map Bytes.lowerByte = Bytes.ofString "vhdl")

variable {name : Bytes}

/-- The extension of a path is that of its last name. -/
theorem extension_of_endsIn (h : Path.EndsIn path name) (hone : ('/' : UInt8) ∉ name) :
    Path.extension path = Path.extension name := by
  have hname : ('/' : UInt8) ∉ name.reverse := by simpa using hone
  rcases h.exists_front with rfl | ⟨front, rfl⟩
  · rfl
  · rw [Path.extension, Path.extension, List.reverse_append, List.reverse_cons, List.append_assoc,
      List.singleton_append, Bytes.takeWhile_bne_append hname, Bytes.takeWhile_bne hname]

theorem extension_append {stem ending : Bytes} (hdot : ('.' : UInt8) ∉ ending)
    (hone : ('/' : UInt8) ∉ stem ++ ('.' : UInt8) :: ending) :
    Path.extension (stem ++ ('.' : UInt8) :: ending) = ('.' : UInt8) :: ending := by
  rw [Path.extension, Bytes.takeWhile_bne fun hmem => hone (List.mem_reverse.mp hmem)]
  rw [if_pos (by simp), List.reverse_append, List.reverse_cons, List.append_assoc,
    List.singleton_append, Bytes.takeWhile_bne_append (by simpa using hdot), List.reverse_reverse]

theorem extension_of_not_mem (hdot : ('.' : UInt8) ∉ name) : Path.extension name = [] := by
  have hlast : ('.' : UInt8) ∉ name.reverse.takeWhile (· != ('/' : UInt8)) := fun hmem =>
    hdot (List.mem_reverse.mp (List.takeWhile_subset _ hmem))
  rw [Path.extension]
  rw [if_neg (by simpa using hlast)]

theorem isSource_eq (path : Bytes) : isSource path = true ↔
    (Path.extension path).map Bytes.lowerByte = Bytes.ofString ".vhd" ∨
      (Path.extension path).map Bytes.lowerByte = Bytes.ofString ".vhdl" := by
  rw [isSource, Bool.or_eq_true, beq_iff_eq, beq_iff_eq,
    CaseMap.toLower_eq_iff (by decide +kernel), CaseMap.toLower_eq_iff (by decide +kernel)]

/-- The test of the extension finds the names of sources. -/
theorem isSource_iff (hone : ('/' : UInt8) ∉ name) : isSource name = true ↔ SourceName name := by
  rw [isSource_eq]
  have hwords : Bytes.ofString ".vhd" = ('.' : UInt8) :: Bytes.ofString "vhd" ∧
      Bytes.ofString ".vhdl" = ('.' : UInt8) :: Bytes.ofString "vhdl" := by decide
  have hlower : Bytes.lowerByte ('.' : UInt8) = ('.' : UInt8) := by decide
  constructor
  · intro h
    rcases Bytes.exists_last ('.' : UInt8) name with hdot | ⟨stem, ending, rfl, hdot⟩
    · rw [extension_of_not_mem hdot] at h
      exact absurd h (by decide)
    · rw [extension_append hdot hone, List.map_cons, hlower, hwords.1, hwords.2] at h
      exact ⟨stem, ending, rfl, h.imp (fun h => (List.cons.inj h).2) fun h => (List.cons.inj h).2⟩
  · rintro ⟨stem, ending, rfl, h⟩
    have hdot : ('.' : UInt8) ∉ ending := by
      intro hmem
      have hmap := List.mem_map_of_mem (f := Bytes.lowerByte) hmem
      rw [hlower] at hmap
      rcases h with h | h <;> exact absurd (h ▸ hmap) (by decide)
    rw [extension_append hdot hone, List.map_cons, hlower, hwords.1, hwords.2]
    exact h.imp (congrArg _) (congrArg _)

/-- Below a folder the sources are the files with the name of one behind folders that are not
hidden. -/
theorem mem_below_folder_iff (ht : (FileTree.folder entries).Proper) (hpath : path ≠ []) :
    file ∈ below path (.folder entries) ↔ ∃ folders name content,
      (FileTree.folder entries).get? (folders ++ [name]) = some (.file content) ∧
        (∀ folder ∈ folders, folder.head? ≠ some ('.' : UInt8)) ∧ SourceName name ∧
        file = Path.clean (path ++ ('/' : UInt8) :: Bytes.join "/" (folders ++ [name])) := by
  -- a place below the folder has a name, and the path to it ends in that name
  have hplace {folders : List Bytes} {name content : Bytes}
      (hfile : (FileTree.folder entries).get? (folders ++ [name]) = some (.file content)) :
      descend path (folders ++ [name]) =
          Path.clean (path ++ ('/' : UInt8) :: Bytes.join "/" (folders ++ [name])) ∧
        (isSource (descend path (folders ++ [name])) = true ↔ SourceName name) := by
    have hnames := (ht.get? hfile).2
    have hname := hnames name (by simp)
    have hdescend := descend_eq hpath (by simp) hnames
    have hends := ((Path.endsIn_join hname folders).append path).clean hname
    refine ⟨hdescend, ?_⟩
    rw [hdescend, isSource_eq, extension_of_endsIn hends hname.one, ← isSource_eq,
      isSource_iff hname.one]
  rw [mem_below_iff ht]
  constructor
  · rintro ⟨l, content, hfile, hvisible, hsource, rfl⟩
    rcases List.eq_nil_or_concat' l with rfl | ⟨folders, name, rfl⟩
    · cases hfile
    · obtain ⟨hdescend, hname⟩ := hplace hfile
      refine ⟨folders, name, content, hfile, by simpa [Visible] using hvisible,
        hname.mp hsource, ?_⟩
      rw [hdescend, Path.clean_clean]
  · rintro ⟨folders, name, content, hfile, hvisible, hsource, rfl⟩
    obtain ⟨hdescend, hname⟩ := hplace hfile
    refine ⟨folders ++ [name], content, hfile, by simpa [Visible] using hvisible,
      hname.mpr hsource, ?_⟩
    rw [hdescend, Path.clean_clean]

/-! ## Sorting -/

theorem le_iff {a b : Bytes} : Bytes.le a b = true ↔ a ≤ b := by
  simp [Bytes.le, List.not_lt]

theorem nodup_eraseDups (paths : List Bytes) : paths.eraseDups.Nodup := by
  induction hn : paths.length using Nat.strong_induction_on generalizing paths with
  | _ n ih =>
      cases paths with
      | nil => simp
      | cons path rest =>
          have hshorter : (rest.filter fun other => !other == path).length < n := by
            rw [← hn, List.length_cons]
            exact Nat.lt_succ_of_le (List.length_filter_le _ _)
          rw [List.eraseDups_cons, List.nodup_cons]
          exact ⟨by simp, ih _ hshorter _ rfl⟩

theorem mem_sorted_iff {paths : List Bytes} : path ∈ sorted paths ↔ path ∈ paths := by
  rw [sorted, List.mem_mergeSort, List.mem_eraseDups]

/-- Sorted paths increase strictly. -/
theorem pairwise_sorted (paths : List Bytes) : (sorted paths).Pairwise (· < ·) := by
  have hle : (sorted paths).Pairwise fun a b => Bytes.le a b = true := by
    refine List.pairwise_mergeSort (fun a b c hab hbc => ?_) (fun a b => ?_) _
    · rw [le_iff] at *
      exact List.le_trans hab hbc
    · rw [Bool.or_eq_true, le_iff, le_iff]
      exact List.le_total a b
  have hne : (sorted paths).Nodup :=
    (List.mergeSort_perm _ _).nodup_iff.mpr (nodup_eraseDups paths)
  refine hle.imp₂ (fun a b hab hne => ?_) hne
  rw [le_iff] at hab
  by_contra hnot
  exact hne (List.le_antisymm hab (List.not_lt.mp hnot))

/-- There is one increasing list of given paths. -/
theorem eq_of_increasing {files files' : List Bytes} (h : files.Pairwise (· < ·))
    (h' : files'.Pairwise (· < ·)) (hmem : ∀ file, file ∈ files ↔ file ∈ files') :
    files = files' := by
  have hne {a b : Bytes} (hab : a < b) : a ≠ b := by
    rintro rfl
    exact List.lt_irrefl a hab
  refine List.Perm.eq_of_pairwise (fun a b _ _ hab hba => ?_) h h' ?_
  · exact absurd (List.lt_trans hab hba) (List.lt_irrefl a)
  · exact (List.perm_ext_iff_of_nodup (h.imp hne) (h'.imp hne)).mpr hmem

/-! ## All paths -/

/-- What a path stands for: itself, if it names a file, and otherwise the sources below it that no
hidden folder is in the way of. -/
inductive StandsFor (d : Disk) (path : Bytes) : Bytes → Prop
  | named {content : Bytes} (hstat : d.stat path = .ok (.file content)) :
      StandsFor d path (Path.clean path)
  | below {entries : List FileEntry} {folders : Location} {name content : Bytes}
      (hstat : d.stat path = .ok (.folder entries))
      (hfile : (FileTree.folder entries).get? (folders ++ [name]) = some (.file content))
      (hvisible : ∀ folder ∈ folders, folder.head? ≠ some ('.' : UInt8))
      (hname : SourceName name) :
      StandsFor d path
        (Path.clean (path ++ ('/' : UInt8) :: Bytes.join "/" (folders ++ [name])))

variable {d : Disk}

/-- A path that leads to a tree is not empty, and the tree is at a place. -/
theorem get?_of_stat (h : d.stat path = .ok t) : path ≠ [] ∧ ∃ l, d.root.get? l = some t := by
  unfold Disk.stat Disk.find at h
  cases hlocate : d.locate path with
  | error reason => simp [hlocate, Disk.blame, bind, Except.bind] at h
  | ok l =>
      refine ⟨?_, l, ?_⟩
      · rintro rfl
        cases hlocate
      · cases hget : d.root.get? l with
        | none => simp [hlocate, hget, Disk.blame, bind, Except.bind] at h
        | some found => simpa [hlocate, hget, Disk.blame, bind, Except.bind] using h

/-- A path that leads to something is searched. -/
theorem exists_ofPath (hd : d.root.Proper) (h : d.stat path = .ok t) :
    ∃ files, ofPath d path = .ok files ∧ ∀ file, file ∈ files ↔ StandsFor d path file := by
  obtain ⟨hpath, l, hget⟩ := get?_of_stat h
  cases t with
  | file content =>
      refine ⟨[Path.clean path], by simp [ofPath, h, bind, Except.bind], fun file => ?_⟩
      rw [List.mem_singleton]
      constructor
      · rintro rfl
        exact .named h
      · rintro (hstat | hstat)
        · rfl
        · rw [h] at hstat
          cases hstat
  | folder entries =>
      refine ⟨below path (.folder entries), by simp [ofPath, h, bind, Except.bind], fun file => ?_⟩
      rw [mem_below_folder_iff (hd.get? hget).1 hpath]
      constructor
      · rintro ⟨folders, name, content, hfile, hvisible, hname, rfl⟩
        exact .below h hfile hvisible hname
      · rintro (hstat | ⟨hstat, hfile, hvisible, hname⟩)
        · rw [h] at hstat
          cases hstat
        · rw [h] at hstat
          cases hstat
          exact ⟨_, _, _, hfile, hvisible, hname, rfl⟩

theorem exists_collect (hd : d.root.Proper) {paths : List Bytes}
    (hpaths : ∀ path ∈ paths, ∃ t, d.stat path = .ok t) :
    ∃ files, collect d paths = .ok files ∧ files.Pairwise (· < ·) ∧
      ∀ file, file ∈ files ↔ ∃ path ∈ paths, StandsFor d path file := by
  have hfound : ∃ found, paths.mapM (ofPath d) = .ok found ∧
      ∀ file, file ∈ found.flatten ↔ ∃ path ∈ paths, StandsFor d path file := by
    induction paths with
    | nil => exact ⟨[], rfl, by simp⟩
    | cons path rest ih =>
        rw [List.forall_mem_cons] at hpaths
        obtain ⟨t, ht⟩ := hpaths.1
        obtain ⟨files, hfiles, hmem⟩ := exists_ofPath hd ht
        obtain ⟨found, hfound, hothers⟩ := ih hpaths.2
        refine ⟨files :: found, by simp [hfiles, hfound, bind, Except.bind, pure, Except.pure], ?_⟩
        intro file
        rw [List.flatten_cons, List.mem_append, hmem, hothers, List.exists_mem_cons_iff]
  obtain ⟨found, hfound, hmem⟩ := hfound
  refine ⟨sorted found.flatten, by simp [collect, hfound, bind, Except.bind, pure, Except.pure],
    pairwise_sorted _, fun file => ?_⟩
  rw [mem_sorted_iff, hmem]

end Sources

/-- The files of a list of paths that lead to something: they increase strictly, they are those the
paths stand for, and another list of the same paths, in any order and with any repetitions, gives
the same files. -/
theorem search_finds_sources_once (d : Disk) (hd : d.root.Proper) (paths : List Bytes)
    (hpaths : ∀ path ∈ paths, ∃ t, d.stat path = .ok t) :
    ∃ files, Sources.collect d paths = .ok files ∧ files.Pairwise (· < ·) ∧
      (∀ file, file ∈ files ↔ ∃ path ∈ paths, Sources.StandsFor d path file) ∧
      ∀ paths' : List Bytes, (∀ path, path ∈ paths' ↔ path ∈ paths) →
        Sources.collect d paths' = .ok files := by
  obtain ⟨files, hfiles, hincreasing, hmem⟩ := Sources.exists_collect hd hpaths
  refine ⟨files, hfiles, hincreasing, hmem, fun paths' hsame => ?_⟩
  obtain ⟨files', hfiles', hincreasing', hmem'⟩ :=
    Sources.exists_collect hd fun path hpath => hpaths path ((hsame path).mp hpath)
  have heq : files' = files := by
    refine Sources.eq_of_increasing hincreasing' hincreasing fun file => ?_
    rw [hmem, hmem']
    exact exists_congr fun path => and_congr_left' (hsame path)
  rw [hfiles', heq]

/-- A folder with a hidden one in it, a file in that folder, and a file by another name. -/
theorem search_finds_sources_once_of_overlap :
    let d : Disk := { root := .folder [
      .mk "a" (.folder [.mk ".git" (.folder [.mk "y.vhd" (.file [])]), .mk "x.VHD" (.file [])]),
      .mk "note.txt" (.file [])] }
    let paths : List Bytes := ["./a/", "note.txt", "a/x.VHD"]
    d.root.Proper ∧ (∀ path ∈ paths, ∃ t, d.stat path = .ok t) ∧
      ∃ files, Sources.collect d paths = .ok files ∧ files.Pairwise (· < ·) ∧
        (∀ file, file ∈ files ↔ ∃ path ∈ paths, Sources.StandsFor d path file) ∧
        ∀ paths' : List Bytes, (∀ path, path ∈ paths' ↔ path ∈ paths) →
          Sources.collect d paths' = .ok files := by
  intro d paths
  have hproper : d.root.Proper := by
    simp only [d, FileTree.proper_folder_iff, List.forall_mem_cons, List.not_mem_nil,
      false_implies, implies_true, FileEntry.name, FileEntry.tree, FileTree.Proper.file]
    decide
  have hpaths : ∀ path ∈ paths, ∃ t, d.stat path = .ok t := by
    simp only [paths, List.forall_mem_cons]
    exact ⟨⟨_, rfl⟩, ⟨_, rfl⟩, ⟨_, rfl⟩, by simp⟩
  exact ⟨hproper, hpaths, search_finds_sources_once d hproper paths hpaths⟩

example : Sources.collect { root := .folder [.mk "b.vhd" (.file []), .mk "a.vhd" (.file [])] }
    [".", "./a.vhd"] = .ok [Bytes.ofString "a.vhd", Bytes.ofString "b.vhd"] := by
  cbv

end VhdlStyle
