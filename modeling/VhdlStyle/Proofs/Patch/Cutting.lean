import Mathlib.Data.List.TakeWhile
import Mathlib.Tactic.ByContra
import VhdlStyle.Patch.Unified
import VhdlStyle.Proofs.Patch.Search

/-! # Hunks of a script

Cutting leaves out runs of kept lines and shows all else: every hunk stands where its lines stand in
both lists, and a kept line is left out between a hunk and the next. -/

namespace VhdlStyle

/-! ## Kept lines -/

namespace Script

variable {α : Type}

/-- The script changes nothing. -/
def AllKeep (s : Script α) : Prop := ∀ e ∈ s, e.isKeep = true

theorem AllKeep.exists_lines {s : Script α} (h : s.AllKeep) :
    ∃ ls : List α, s = ls.map Edit.keep := by
  induction s with
  | nil => exact ⟨[], rfl⟩
  | cons e s ih =>
      obtain ⟨ls, rfl⟩ := ih fun e he => h e (List.mem_cons_of_mem _ he)
      have he : e.isKeep = true := h e List.mem_cons_self
      cases e with
      | keep l => exact ⟨l :: ls, rfl⟩
      | delete l => exact absurd he Bool.false_ne_true
      | insert l => exact absurd he Bool.false_ne_true

theorem AllKeep.sublist {s t : Script α} (h : t.AllKeep) (hsub : s.Sublist t) : s.AllKeep :=
  fun e he => h e (hsub.subset he)

theorem allKeep_takeWhile (s : Script α) : AllKeep (s.takeWhile Edit.isKeep) :=
  fun _ he => List.mem_takeWhile_imp he

theorem dropWhile_eq_nil {s : Script α} (h : s.AllKeep) : s.dropWhile Edit.isKeep = [] :=
  List.dropWhile_eq_nil_iff.mpr h

/-- A list is turned into itself by keeping all of it. -/
theorem shortest_self [BEq α] [LawfulBEq α] (ls : List α) : shortest ls ls = ls.map Edit.keep := by
  have hslide (passed : Nat) (steps : List (Edit α)) : Reach.slide passed ls ls steps =
      ⟨passed + ls.length, [], [], (ls.map Edit.keep).reverse ++ steps⟩ := by
    induction ls generalizing passed steps with
    | nil => rfl
    | cons l ls ih =>
        rw [Reach.slide, if_pos (beq_self_eq_true l), ih]
        simp only [List.length_cons, List.map_cons, List.reverse_cons, List.append_assoc,
          List.singleton_append, Reach.mk.injEq, and_true]
        omega
  rw [shortest, search, hslide]
  simp [Reach.isDone]

end Script

namespace Patch

/-- Behind a hunk come kept lines to the end, or more of them than the next hunk shows. -/
theorem splitHunk_after (s : Script Bytes) :
    Script.AllKeep (splitHunk s).2 ∨ context < ((splitHunk s).2.takeWhile Edit.isKeep).length := by
  fun_induction splitHunk s with
  | case1 => exact .inl fun e he => absurd he List.not_mem_nil
  | case2 e rest hcloses =>
      simp only [closes, Bool.and_eq_true, Bool.or_eq_true, beq_iff_eq, decide_eq_true_eq]
        at hcloses
      have hsplit := List.takeWhile_append_dropWhile (p := Edit.isKeep) (l := e :: rest)
      rcases hcloses.2 with hall | hlong
      · refine .inl fun x hx => ?_
        have hkeep : (e :: rest).takeWhile Edit.isKeep = e :: rest :=
          (List.takeWhile_prefix _).eq_of_length hall
        exact List.takeWhile_eq_self_iff.mp hkeep x (List.mem_of_mem_drop hx)
      · refine .inr ?_
        -- dropping the context leaves the rest of the run in front
        have hdrop : (e :: rest).drop context = ((e :: rest).takeWhile Edit.isKeep).drop context ++
            (e :: rest).dropWhile Edit.isKeep := by
          conv_lhs => rw [← hsplit]
          exact List.drop_append_of_le_length (by omega)
        have hkeep : Script.AllKeep (((e :: rest).takeWhile Edit.isKeep).drop context) :=
          (Script.allKeep_takeWhile _).sublist (List.drop_sublist _ _)
        rw [hdrop, List.takeWhile_append_of_pos hkeep, List.length_append, List.length_drop]
        omega
  | case3 e rest hopen body after hparts ih =>
      rw [hparts] at ih
      exact ih

end Patch

/-! ## Cuts -/

namespace Hunk

/-- The numbers of lines up to and including the hunk. -/
def oldAfter (h : Hunk) : Nat := h.oldBefore + h.edits.source.length

/-- The same in the new list. -/
def newAfter (h : Hunk) : Nat := h.newBefore + h.edits.target.length

/-- In both lists at least one line lies between the hunks. -/
structure Before (g h : Hunk) : Prop where
  old : g.oldAfter < h.oldBefore
  new : g.newAfter < h.newBefore

/-- The hunks show all changes of a script that goes on behind some lines of both lists; the lines
they leave out are kept. -/
inductive Shows : Nat → Nat → Script Bytes → List Hunk → Prop where
  | kept {old new : Nat} (ls : List Bytes) : Shows old new (ls.map .keep) []
  | hunk {old new : Nat} (skipped : List Bytes) (h : Hunk) {rest : Script Bytes} {hs : List Hunk} :
      h.oldBefore = old + skipped.length → h.newBefore = new + skipped.length →
      (∀ g ∈ hs.head?, h.Before g) → Shows h.oldAfter h.newAfter rest hs →
      Shows old new (skipped.map .keep ++ (h.edits ++ rest)) (h :: hs)

theorem cut_of_allKeep (old new : Nat) {s : Script Bytes} (h : s.AllKeep) : cut old new s = [] := by
  rw [cut]
  split
  · rfl
  · rename_i hdrop
    rw [Script.dropWhile_eq_nil h] at hdrop
    exact absurd hdrop (by simp)

theorem cut_ne_nil (old new : Nat) {s : Script Bytes} (h : ¬s.AllKeep) : cut old new s ≠ [] := by
  rw [cut]
  split
  · rename_i hdrop
    exact absurd (List.dropWhile_eq_nil_iff.mp hdrop) h
  · exact List.cons_ne_nil _ _

/-- The first hunk leaves out the kept lines in front of it but for its context. -/
theorem head?_cut (old new : Nat) (s : Script Bytes) {h : Hunk} (hh : h ∈ (cut old new s).head?) :
    h.oldBefore = old + ((s.takeWhile Edit.isKeep).length - Patch.context) ∧
    h.newBefore = new + ((s.takeWhile Edit.isKeep).length - Patch.context) := by
  rw [cut] at hh
  split at hh
  · simp at hh
  · simp only [List.head?_cons, Option.mem_def, Option.some.injEq] at hh
    rw [← hh]
    dsimp only
    rw [List.length_take, Nat.min_eq_left (Nat.sub_le _ _)]
    exact ⟨rfl, rfl⟩

theorem shows_cut (old new : Nat) (s : Script Bytes) : Shows old new s (cut old new s) := by
  fun_induction cut old new s with
  | case1 old new s hdrop =>
      have hkeep : s.AllKeep := List.dropWhile_eq_nil_iff.mp hdrop
      obtain ⟨ls, rfl⟩ := hkeep.exists_lines
      exact .kept ls
  | case2 old new s gap skipped lead e rest hdrop parts hunk ih =>
      have hgap : Script.AllKeep gap := Script.allKeep_takeWhile s
      have hskipped : Script.AllKeep skipped := hgap.sublist (List.take_sublist _ _)
      obtain ⟨ls, hls⟩ := hskipped.exists_lines
      have hlength : skipped.length = ls.length := by rw [hls, List.length_map]
      have hscript : s = ls.map .keep ++ (hunk.edits ++ parts.2) := by
        calc
          s = gap ++ e :: rest := by rw [← hdrop, List.takeWhile_append_dropWhile]
          _ = (skipped ++ lead) ++ e :: rest := by rw [List.take_append_drop]
          _ = skipped ++ (lead ++ e :: (parts.1 ++ parts.2)) := by
            rw [Patch.splitHunk_append, List.append_assoc]
          _ = ls.map .keep ++ (hunk.edits ++ parts.2) := by
            rw [← hls]
            simp [hunk, List.append_assoc]
      have hnext : ∀ g ∈ (cut hunk.oldAfter hunk.newAfter parts.2).head?, hunk.Before g := by
        intro g hg
        have hafter : Script.AllKeep parts.2 ∨
            Patch.context < (parts.2.takeWhile Edit.isKeep).length := Patch.splitHunk_after rest
        rcases hafter with hkept | hlong
        · rw [cut_of_allKeep _ _ hkept] at hg
          simp at hg
        · obtain ⟨hold, hnew⟩ := head?_cut _ _ _ hg
          exact ⟨by omega, by omega⟩
      rw [hscript]
      exact .hunk ls hunk (congrArg (old + ·) hlength) (congrArg (new + ·) hlength) hnext ih

end Hunk

namespace Patch

/-- The hunks of two texts show a script from the lines of one to those of the other. -/
theorem shows_hunks (old new : Bytes) :
    Hunk.Shows 0 0 (Script.shortest (lines old) (lines new)) (hunks old new) :=
  Hunk.shows_cut 0 0 _

/-- Texts without hunks have the same lines. -/
theorem hunks_eq_nil_iff (old new : Bytes) : hunks old new = [] ↔ lines old = lines new := by
  constructor
  · intro hnil
    have hkeep : (Script.shortest (lines old) (lines new)).AllKeep := by
      by_contra hchange
      exact Hunk.cut_ne_nil 0 0 hchange hnil
    obtain ⟨ls, hls⟩ := hkeep.exists_lines
    rw [← Script.source_shortest (lines old) (lines new), hls, Script.source_keeps,
      ← Script.target_shortest (lines old) (lines new), hls, Script.target_keeps]
  · intro hsame
    refine Hunk.cut_of_allKeep 0 0 ?_
    rw [hsame, Script.shortest_self]
    intro e he
    obtain ⟨l, -, rfl⟩ := List.mem_map.mp he
    rfl

end Patch

end VhdlStyle
