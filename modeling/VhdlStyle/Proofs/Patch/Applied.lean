import Mathlib.Data.List.Chain
import VhdlStyle.Proofs.Patch.Cutting
import VhdlStyle.Proofs.Patch.Reading

/-! # A unified difference is a correct patch

The text of a difference is read back as hunks that stand in order, whose headers count and locate
their lines on both sides, and that turn the old lines into the new ones. -/

namespace VhdlStyle

/-! ## Patches -/

/-- In both texts at least one line lies between the hunks. -/
structure ReadHunk.Before (g h : ReadHunk) : Prop where
  old : g.old.after < h.old.before
  new : g.new.after < h.new.before

namespace Patch

/-- The lines behind the first `passed` ones, with the old lines of each hunk replaced by its new
ones. -/
def replace (passed : Nat) : List Bytes → List ReadHunk → List Bytes
  | rest, [] => rest
  | rest, h :: hs =>
    rest.take (h.old.before - passed) ++ h.edits.target ++
      replace h.old.after (rest.drop (h.old.after - passed)) hs

/-- The hunks are a patch from the old lines to the new ones. -/
structure Correct (old new : List Bytes) (hs : List ReadHunk) : Prop where
  /-- The hunks stand in order and apart. -/
  ordered : hs.Pairwise ReadHunk.Before
  /-- A header counts the kept and deleted lines, and the kept and inserted ones. -/
  counted : ∀ h ∈ hs, h.old.count = h.edits.source.length ∧ h.new.count = h.edits.target.length
  /-- Its ranges lie within the texts. -/
  inside : ∀ h ∈ hs, h.old.after ≤ old.length ∧ h.new.after ≤ new.length
  /-- Where a header points, both texts have the lines of the hunk. -/
  located : ∀ h ∈ hs, h.old.slice old = h.edits.source ∧ h.new.slice new = h.edits.target
  /-- The hunks turn the old lines into the new ones. -/
  replaced : replace 0 old hs = new

end Patch

/-! ## Hunks of a script -/

namespace Hunk

theorem Before.trans {f g h : Hunk} (hfg : f.Before g) (hgh : g.Before h) : f.Before h :=
  ⟨Nat.lt_trans (Nat.lt_of_lt_of_le hfg.old (Nat.le_add_right _ _)) hgh.old,
    Nat.lt_trans (Nat.lt_of_lt_of_le hfg.new (Nat.le_add_right _ _)) hgh.new⟩

instance before_trans : Trans Before Before Before := ⟨Before.trans⟩

namespace Shows

variable {old new : Nat} {s : Script Bytes} {hs : List Hunk}

theorem ordered (h : Shows old new s hs) : hs.Pairwise Before := by
  rw [← List.isChain_iff_pairwise]
  induction h with
  | kept ls => exact .nil
  | hunk skipped g hold hnew hnext _ ih => exact List.isChain_cons.mpr ⟨hnext, ih⟩

/-- A hunk is a part of the script and stands where its numbers say. -/
theorem located (h : Shows old new s hs) : ∀ g ∈ hs, ∃ front back, s = front ++ (g.edits ++ back) ∧
    g.oldBefore = old + front.source.length ∧ g.newBefore = new + front.target.length := by
  induction h with
  | kept ls => exact fun g hg => absurd hg List.not_mem_nil
  | @hunk old new skipped f rest hs hold hnew hnext _ ih =>
      intro g hg
      rcases List.mem_cons.mp hg with rfl | hg
      · exact ⟨skipped.map .keep, rest, rfl, by simp [hold], by simp [hnew]⟩
      · obtain ⟨front, back, hrest, hgold, hgnew⟩ := ih g hg
        refine ⟨skipped.map .keep ++ (f.edits ++ front), back, ?_, ?_, ?_⟩
        · simp [hrest]
        · simp only [Script.source_append, Script.source_keeps, List.length_append, hgold,
            oldAfter, hold]
          omega
        · simp only [Script.target_append, Script.target_keeps, List.length_append, hgnew,
            newAfter, hnew]
          omega

/-- Replacing the old lines of the hunks by their new ones carries out the script. -/
theorem replaced (h : Shows old new s hs) :
    Patch.replace old s.source (hs.map toRead) = s.target := by
  induction h with
  | kept ls => simp [Patch.replace]
  | @hunk old new skipped g rest hs hold hnew hnext _ ih =>
      have hskip : g.toRead.old.before - old = skipped.length := by
        change g.oldBefore - old = skipped.length
        omega
      have hover : g.toRead.old.after - old = skipped.length + g.edits.source.length := by
        change g.oldBefore + g.edits.source.length - old = _
        omega
      have hsource : Script.source (skipped.map .keep ++ (g.edits ++ rest)) =
          skipped ++ (g.edits.source ++ rest.source) := by simp
      have hbehind : (skipped ++ (g.edits.source ++ rest.source)).drop
          (skipped.length + g.edits.source.length) = rest.source := by
        rw [← List.append_assoc, ← List.length_append, List.drop_left]
      rw [List.map_cons, Patch.replace, hskip, hover, hsource, List.take_left, hbehind]
      change skipped ++ g.edits.target ++ Patch.replace g.oldAfter rest.source _ = _
      rw [ih]
      simp

end Shows

/-- What stands at a place in a list is found there. -/
theorem slice_append (before lines after : List Bytes) :
    (⟨before.length, lines.length⟩ : LineRange).slice (before ++ (lines ++ after)) = lines := by
  rw [LineRange.slice, List.drop_left, List.take_left]

/-- Hunks that show a script are a patch between its two lists. -/
theorem Shows.correct {s : Script Bytes} {hs : List Hunk} (h : Shows 0 0 s hs) :
    Patch.Correct s.source s.target (hs.map toRead) where
  ordered := List.pairwise_map.mpr (h.ordered.imp fun hbefore => ⟨hbefore.old, hbefore.new⟩)
  counted := List.forall_mem_map.mpr fun _ _ => ⟨rfl, rfl⟩
  inside := by
    refine List.forall_mem_map.mpr fun g hg => ?_
    obtain ⟨front, back, rfl, hold, hnew⟩ := h.located g hg
    simp only [toRead, LineRange.after, Script.source_append, Script.target_append,
      List.length_append]
    omega
  located := by
    refine List.forall_mem_map.mpr fun g hg => ?_
    obtain ⟨front, back, rfl, hold, hnew⟩ := h.located g hg
    rw [Nat.zero_add] at hold hnew
    rw [toRead, hold, hnew, Script.source_append, Script.source_append, Script.target_append,
      Script.target_append]
    exact ⟨slice_append _ _ _, slice_append _ _ _⟩
  replaced := h.replaced

end Hunk

/-! ## Texts -/

namespace Patch

theorem lf_not_mem_lines (text : Bytes) : ∀ l ∈ lines text, Bytes.lf ∉ l := by
  intro l hl
  rw [lines] at hl
  split at hl
  · exact absurd hl List.not_mem_nil
  · obtain ⟨piece, hpiece, rfl⟩ := List.mem_map.mp hl
    have hlf := Bytes.not_mem_of_split _ piece hpiece
    split
    · exact fun hmem => hlf (List.dropLast_subset _ hmem)
    · exact hlf

/-- The lines of the hunks hold no line feed, since they are lines of the texts. -/
theorem oneLiners_hunks (old new : Bytes) : ∀ h ∈ hunks old new, h.OneLiners := by
  intro h hh e he
  obtain ⟨front, back, hscript, -⟩ := (shows_hunks old new).located h hh
  have hmem : e ∈ Script.shortest (lines old) (lines new) := by simp [hscript, he]
  have hsource {l : Bytes} (hl : e.old? = some l) : Bytes.lf ∉ l := by
    refine lf_not_mem_lines old l ?_
    rw [← Script.source_shortest (lines old) (lines new)]
    exact List.mem_filterMap.mpr ⟨e, hmem, hl⟩
  have htarget {l : Bytes} (hl : e.new? = some l) : Bytes.lf ∉ l := by
    refine lf_not_mem_lines new l ?_
    rw [← Script.target_shortest (lines old) (lines new)]
    exact List.mem_filterMap.mpr ⟨e, hmem, hl⟩
  have hmark : Bytes.lf ≠ (' ' : Char).toUInt8 ∧ Bytes.lf ≠ ('-' : Char).toUInt8 ∧
      Bytes.lf ≠ ('+' : Char).toUInt8 := by decide
  cases e with
  | keep l => simpa [Hunk.editLine, hmark.1] using hsource rfl
  | delete l => simpa [Hunk.editLine, hmark.2.1] using hsource rfl
  | insert l => simpa [Hunk.editLine, hmark.2.2] using htarget rfl

theorem unified_eq (path old new : Bytes) :
    unified path old new = if hunks old new = [] then []
      else fileHeader path ++ (hunks old new).flatMap Hunk.render := by
  have hfound : (if old == new then [] else hunks old new) = hunks old new := by
    split
    · rename_i hsame
      exact ((hunks_eq_nil_iff old new).mpr (congrArg lines (eq_of_beq hsame))).symm
    · rfl
  rw [unified, hfound]
  simp [fileHeader]

theorem fileHeader_ne_nil (path : Bytes) : fileHeader path ≠ [] := by
  intro hnil
  have hmark : Bytes.ofString "--- " ≠ [] := by decide
  simp [fileHeader, hmark] at hnil

theorem unified_eq_nil_iff (path old new : Bytes) :
    unified path old new = [] ↔ lines old = lines new := by
  rw [unified_eq, ← hunks_eq_nil_iff]
  split
  · simp [*]
  · simp [*, fileHeader_ne_nil]

/-- The text of a difference is read back as its hunks. -/
theorem read?_unified (path old new : Bytes) :
    read? path (unified path old new) = some ((hunks old new).map Hunk.toRead) := by
  rw [unified_eq]
  split
  · simp [read?, *]
  · have hread := ReadHunk.readLines?_render (oneLiners_hunks old new)
    simp [read?, fileHeader_ne_nil, Bytes.dropPrefix?_append, hread]

/-- The text of a unified difference can be read as hunks; these are a correct patch from the lines
of the old text to those of the new one, and the text is empty only when the lines are the same. -/
theorem unified_correct (path old new : Bytes) :
    (∃ hs, read? path (unified path old new) = some hs ∧ Correct (lines old) (lines new) hs) ∧
    (unified path old new = [] ↔ lines old = lines new) := by
  have hcorrect := (shows_hunks old new).correct
  rw [Script.source_shortest, Script.target_shortest] at hcorrect
  exact ⟨⟨_, read?_unified path old new, hcorrect⟩, unified_eq_nil_iff path old new⟩

end Patch

end VhdlStyle
