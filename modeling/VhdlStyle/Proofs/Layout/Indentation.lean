import Mathlib.Data.List.Forall2
import VhdlStyle.Proofs.Layout.Fitting
import VhdlStyle.Proofs.Layout.SideBySide
import VhdlStyle.Proofs.Layout.Writing

/-! # Indentation by tabs and by spaces

Where lines break depends on columns alone, and a level of indentation takes the same columns
whether it is written as a tab or as spaces. The two layouts of a document therefore have the same
lines, and each line differs in its indentation alone. -/

namespace VhdlStyle

/-! ## Lines of a text -/

namespace Bytes

/-- The pieces between the occurrences of `sep`, from the left; `skip` bytes are already dealt
with. -/
def piecesFrom (sep : Bytes) : Nat → Bytes → List Bytes
  | _, [] => [[]]
  | skip + 1, _ :: rest => piecesFrom sep skip rest
  | 0, b :: rest =>
    if sep.isPrefixOf (b :: rest) then [] :: piecesFrom sep (sep.length - 1) rest
    else (piecesFrom sep 0 rest).modifyHead (b :: ·)

/-- The lines of a text, parted by `newline`. -/
def linesOf (newline s : Bytes) : List Bytes := piecesFrom newline 0 s

variable {newline line : Bytes}

/-- A newline does not begin inside the line that it ends. -/
theorem not_newline_before (hnewline : IsNewline newline) {b : UInt8} (hline : lf ∉ b :: line)
    (rest : Bytes) : newline.isPrefixOf (b :: (line ++ newline ++ rest)) = false := by
  rw [List.mem_cons, not_or] at hline
  rw [Bool.eq_false_iff, Ne, List.isPrefixOf_iff_prefix]
  rcases hnewline with rfl | rfl
  · rintro ⟨tail, htail⟩
    exact hline.1 (List.cons.inj htail).1
  · rintro ⟨tail, htail⟩
    obtain ⟨-, hnext⟩ := List.cons.inj htail
    cases line with
    | nil => exact absurd (List.cons.inj hnext).1 (by decide)
    | cons c line => exact hline.2 (List.mem_cons.mpr (.inl (List.cons.inj hnext).1))

theorem linesOf_append (hnewline : IsNewline newline) (hline : lf ∉ line) (rest : Bytes) :
    linesOf newline (line ++ newline ++ rest) = line :: linesOf newline rest := by
  induction line with
  | nil => rcases hnewline with rfl | rfl <;> rfl
  | cons b line ih =>
      have hrest := ih fun hmem => hline (List.mem_cons_of_mem b hmem)
      rw [linesOf] at hrest
      rw [List.cons_append, List.cons_append, linesOf, piecesFrom,
        not_newline_before hnewline hline rest, if_neg Bool.false_ne_true, hrest,
        List.modifyHead_cons]

theorem linesOf_of_not_mem (hnewline : IsNewline newline) (hline : lf ∉ line) :
    linesOf newline line = [line] := by
  induction line with
  | nil => rfl
  | cons b line ih =>
      have hfront : newline.isPrefixOf (b :: line) = false := by
        rw [Bool.eq_false_iff, Ne, List.isPrefixOf_iff_prefix]
        have hlf : lf ∈ newline := by rcases hnewline with rfl | rfl <;> decide
        exact fun hfront => hline (hfront.subset hlf)
      have hrest := ih fun hmem => hline (List.mem_cons_of_mem b hmem)
      rw [linesOf] at hrest
      rw [linesOf, piecesFrom, hfront, if_neg Bool.false_ne_true, hrest, List.modifyHead_cons]

/-- Lines put behind each other with newlines between them are found again. -/
theorem linesOf_lines (hnewline : IsNewline newline) {lines : List Bytes}
    (hlines : ∀ line ∈ lines, lf ∉ line) (hlast : lf ∉ line) :
    linesOf newline (lines.flatMap (· ++ newline) ++ line) = lines ++ [line] := by
  induction lines with
  | nil => exact linesOf_of_not_mem hnewline hlast
  | cons first rest ih =>
      rw [List.forall_mem_cons] at hlines
      rw [List.flatMap_cons, List.append_assoc, linesOf_append hnewline hlines.1, ih hlines.2,
        List.cons_append]

/-- Trimming stops at what it leaves of the end. -/
theorem trimRight_append_of_shown {s t : Bytes} (ht : ∃ b ∈ t, Writer.isBlank b = false) :
    trimRight Writer.isBlank (s ++ t) = s ++ trimRight Writer.isBlank t := by
  have hne : (t.reverse.dropWhile Writer.isBlank).isEmpty = false := by
    rw [List.isEmpty_eq_false_iff, Ne, List.dropWhile_eq_nil_iff]
    obtain ⟨b, hb, hshown⟩ := ht
    intro hall
    exact Bool.false_ne_true (hshown.symm.trans (hall b (List.mem_reverse.mpr hb)))
  rw [trimRight, trimRight, List.reverse_append, List.dropWhile_append, hne]
  simp

theorem trimRight_append_of_blank {s t : Bytes} (ht : ∀ b ∈ t, Writer.isBlank b = true) :
    trimRight Writer.isBlank (s ++ t) = trimRight Writer.isBlank s := by
  rw [trimRight, trimRight, List.reverse_append, List.dropWhile_append_of_pos]
  exact fun b hb => ht b (List.mem_reverse.mp hb)

end Bytes

/-! ## Indented lines -/

/-- What a level of indentation is written as. -/
def LayoutOptions.indentUnit (o : LayoutOptions) : Bytes :=
  if o.tabs then [Bytes.tab] else List.replicate o.indentSize.toNat Bytes.space

theorem LayoutOptions.blank_of_mem_indentUnit {o : LayoutOptions} :
    ∀ b ∈ o.indentUnit, Writer.isBlank b = true := by
  intro b hb
  rw [indentUnit] at hb
  split at hb
  · rw [List.mem_singleton.mp hb]
    rfl
  · rw [List.eq_of_mem_replicate hb]
    rfl

/-- A line with its levels of indentation. -/
structure IndentedLine where
  level : Nat := 0
  rest : Bytes := []
  deriving DecidableEq

namespace IndentedLine

/-- The line with a unit for each level. -/
def bytes (unit : Bytes) (l : IndentedLine) : Bytes :=
  (List.replicate l.level unit).flatten ++ l.rest

/-- The line without the blanks at its end; a line of blanks has no indentation either. -/
def trim (l : IndentedLine) : IndentedLine :=
  if l.rest.all Writer.isBlank then {} else ⟨l.level, Bytes.trimRight Writer.isBlank l.rest⟩

variable {o : LayoutOptions} (l : IndentedLine)

theorem blank_of_mem_indentation : ∀ b ∈ (List.replicate l.level o.indentUnit).flatten,
    Writer.isBlank b = true := by
  intro b hb
  obtain ⟨unit, hunit, hb⟩ := List.mem_flatten.mp hb
  rw [List.eq_of_mem_replicate hunit] at hb
  exact o.blank_of_mem_indentUnit b hb

theorem lf_not_mem_bytes (hrest : Bytes.lf ∉ l.rest) : Bytes.lf ∉ l.bytes o.indentUnit := by
  rw [bytes, List.mem_append, not_or]
  exact ⟨fun hlf => absurd (l.blank_of_mem_indentation _ hlf) (by decide), hrest⟩

theorem lf_not_mem_trim (hrest : Bytes.lf ∉ l.rest) : Bytes.lf ∉ l.trim.rest := by
  rw [trim]
  split
  · exact List.not_mem_nil
  · exact fun hlf => hrest ((List.rdropWhile_prefix Writer.isBlank l.rest).subset hlf)

/-- Behind what does not end in a blank, trimming concerns the line alone. -/
theorem trimRight_append_bytes {s : Bytes} (hs : Writer.Trimmed s) :
    Bytes.trimRight Writer.isBlank (s ++ l.bytes o.indentUnit) =
      s ++ l.trim.bytes o.indentUnit := by
  rw [bytes, trim, ← List.append_assoc]
  split
  case isTrue hblank =>
    rw [List.all_eq_true] at hblank
    rw [Bytes.trimRight_append_of_blank hblank,
      Bytes.trimRight_append_of_blank l.blank_of_mem_indentation, hs]
    simp [bytes]
  case isFalse hshown =>
    have hshown : ∃ b ∈ l.rest, Writer.isBlank b = false := by simpa using hshown
    rw [Bytes.trimRight_append_of_shown hshown, bytes, List.append_assoc]

theorem trimmed_trim : Writer.Trimmed (l.trim.bytes o.indentUnit) := by
  have htrim := l.trimRight_append_bytes (o := o) (s := []) rfl
  rw [List.nil_append, List.nil_append] at htrim
  rw [← htrim]
  exact Writer.trimmed_trimRight _

end IndentedLine

/-! ## Writing lines -/

namespace Writer

theorem toNat_mul_of_pos {size : Int} (hsize : 0 < size) (levels : Int) :
    (levels * size).toNat = levels.toNat * size.toNat := by
  have hnonneg := Int.le_of_lt hsize
  rcases Int.le_total 0 levels with hlevels | hlevels
  · obtain ⟨m, rfl⟩ := Int.eq_ofNat_of_zero_le hlevels
    obtain ⟨n, rfl⟩ := Int.eq_ofNat_of_zero_le hnonneg
    rw [← Int.natCast_mul, Int.toNat_natCast, Int.toNat_natCast, Int.toNat_natCast]
  · rw [Int.toNat_of_nonpos hlevels, Nat.zero_mul,
      Int.toNat_of_nonpos (Int.mul_nonpos_of_nonpos_of_nonneg hlevels hnonneg)]

/-- The writer has written the lines `above`, without the blanks at their ends, and what stands on
the line after them. -/
structure HasLines (o : LayoutOptions) (w : Writer) (above : List IndentedLine)
    (current : IndentedLine) : Prop where
  out_eq : w.out.reverse =
    above.flatMap (fun l => l.trim.bytes o.indentUnit ++ o.newline) ++ current.bytes o.indentUnit
  start : w.atLineStart = true → current = {}

namespace HasLines

variable {o : LayoutOptions} {w : Writer} {above : List IndentedLine} {current : IndentedLine}

/-- The lines above end in a newline, so that trimming does not reach them. -/
theorem trimmed_above (ho : IsNewline o.newline) :
    Trimmed (above.flatMap fun l => l.trim.bytes o.indentUnit ++ o.newline) := by
  rcases List.eq_nil_or_concat above with rfl | ⟨lines, last, rfl⟩
  · rfl
  · rw [List.concat_eq_append, List.flatMap_append, List.flatMap_singleton, ← List.append_assoc]
    exact trimmed_append (trimmed_newline ho) (newline_ne_nil ho)

theorem reverse_trim (h : HasLines o w above current) (ho : IsNewline o.newline) :
    (w.out.dropWhile isBlank).reverse =
      above.flatMap (fun l => l.trim.bytes o.indentUnit ++ o.newline) ++
        current.trim.bytes o.indentUnit := by
  rw [← current.trimRight_append_bytes (trimmed_above ho), ← h.out_eq, Bytes.trimRight,
    List.reverse_reverse]

theorem newline (h : HasLines o w above current) (ho : IsNewline o.newline) (indent : Int) :
    HasLines o (w.newline o indent) (above ++ [current]) {} where
  out_eq := by
    rw [Writer.newline, List.reverse_append, List.reverse_reverse, h.reverse_trim ho]
    simp [IndentedLine.bytes]
  start _ := rfl

theorem startLine (h : HasLines o w above current) (hsize : 0 < o.indentSize) :
    HasLines o (w.startLine o) above
      (if w.atLineStart then ⟨w.pending.toNat, []⟩ else current) := by
  rw [Writer.startLine]
  cases hstart : w.atLineStart with
  | false => exact ⟨h.out_eq, fun hw => absurd hw (by simp [hstart])⟩
  | true =>
      refine ⟨?_, by simp⟩
      have hblanks : (if o.tabs then List.replicate w.pending.toNat Bytes.tab
          else List.replicate (w.pending * o.indentSize).toNat Bytes.space) =
          (List.replicate w.pending.toNat o.indentUnit).flatten := by
        rw [LayoutOptions.indentUnit]
        split
        · rw [List.flatten_replicate_singleton]
        · rw [List.flatten_replicate_replicate, toNat_mul_of_pos hsize]
      have hout := h.out_eq
      rw [h.start hstart] at hout
      simp [push, hout, hblanks, IndentedLine.bytes]

theorem push (h : HasLines o w above current) (s : Bytes) {v : Writer}
    (hv : v.out = s.reverse ++ w.out) (hstart : v.atLineStart = false) :
    HasLines o v above ⟨current.level, current.rest ++ s⟩ where
  out_eq := by simp [hv, h.out_eq, IndentedLine.bytes]
  start hv := absurd hv (by simp [hstart])

/-- The lines of what was written, and their bytes. -/
theorem linesOf_result (h : HasLines o w above current) (ho : IsNewline o.newline)
    (hlf : ∀ l ∈ above ++ [current], Bytes.lf ∉ l.rest) :
    Bytes.linesOf o.newline w.result =
      (above ++ [current]).map fun l => l.trim.bytes o.indentUnit := by
  have hline : ∀ l ∈ above ++ [current], Bytes.lf ∉ l.trim.bytes o.indentUnit :=
    fun l hl => l.trim.lf_not_mem_bytes (l.lf_not_mem_trim (hlf l hl))
  rw [List.forall_mem_append, List.forall_mem_singleton] at hline
  have hlines := Bytes.linesOf_lines ho (List.forall_mem_map.mpr hline.1) hline.2
  rw [List.flatMap_map] at hlines
  rw [result, h.reverse_trim ho, hlines, List.map_append, List.map_singleton]

end HasLines

/-- Two writers at the same column have written the same lines, each with its own unit of
indentation. -/
structure SameLines (o o' : LayoutOptions) (w w' : Writer) (above : List IndentedLine)
    (current : IndentedLine) : Prop where
  col_eq : w.col = w'.col
  pending_eq : w.pending = w'.pending
  start_eq : w.atLineStart = w'.atLineStart
  first : HasLines o w above current
  second : HasLines o' w' above current
  lf_not_mem : ∀ l ∈ above ++ [current], Bytes.lf ∉ l.rest

namespace SameLines

variable {o o' : LayoutOptions} {w w' : Writer} {above : List IndentedLine}
  {current : IndentedLine}

theorem newline (h : SameLines o o' w w' above current) (ho : IsNewline o.newline)
    (ho' : IsNewline o'.newline) (indent : Int) :
    SameLines o o' (w.newline o indent) (w'.newline o' indent) (above ++ [current]) {} where
  col_eq := rfl
  pending_eq := rfl
  start_eq := rfl
  first := h.first.newline ho indent
  second := h.second.newline ho' indent
  lf_not_mem := List.forall_mem_append.mpr ⟨h.lf_not_mem, by simp⟩

/-- The line is started by both or was started in both. -/
theorem startLine (h : SameLines o o' w w' above current) (hsize : 0 < o.indentSize)
    (hsame : o.indentSize = o'.indentSize) :
    ∃ started, SameLines o o' (w.startLine o) (w'.startLine o') above started := by
  have hfirst := h.first.startLine hsize
  have hsecond := h.second.startLine (hsame ▸ hsize)
  rw [← h.start_eq, ← h.pending_eq] at hsecond
  refine ⟨_, ?_, ?_, ?_, hfirst, hsecond, ?_⟩
  · simp only [Writer.startLine, ← h.start_eq, ← h.pending_eq, ← hsame]
    cases w.atLineStart with
    | true => rfl
    | false => exact h.col_eq
  · simp only [Writer.startLine, ← h.start_eq]
    cases w.atLineStart with
    | true => exact h.pending_eq
    | false => exact h.pending_eq
  · simp only [Writer.startLine, ← h.start_eq]
    cases hstart : w.atLineStart with
    | true => rfl
    | false => exact h.start_eq
  · rw [List.forall_mem_append, List.forall_mem_singleton]
    have hlf := List.forall_mem_append.mp h.lf_not_mem
    rw [List.forall_mem_singleton] at hlf
    refine ⟨hlf.1, ?_⟩
    split
    · exact List.not_mem_nil
    · exact hlf.2

theorem push (h : SameLines o o' w w' above current) {s : Bytes} (hs : Bytes.lf ∉ s)
    {v v' : Writer} (hv : v.out = s.reverse ++ w.out) (hv' : v'.out = s.reverse ++ w'.out)
    (hcol : v.col = v'.col) (hpending : v.pending = v'.pending) (hstart : v.atLineStart = false)
    (hstart' : v'.atLineStart = false) :
    SameLines o o' v v' above ⟨current.level, current.rest ++ s⟩ where
  col_eq := hcol
  pending_eq := hpending
  start_eq := hstart.trans hstart'.symm
  first := h.first.push s hv hstart
  second := h.second.push s hv' hstart'
  lf_not_mem := by
    have hlf := List.forall_mem_append.mp h.lf_not_mem
    rw [List.forall_mem_singleton] at hlf
    rw [List.forall_mem_append, List.forall_mem_singleton, List.mem_append, not_or]
    exact ⟨hlf.1, hlf.2, hs⟩

theorem textLines (h : SameLines o o' w w' above current) (ho : IsNewline o.newline)
    (ho' : IsNewline o'.newline) {lines : List Bytes} (hlines : ∀ line ∈ lines, Bytes.lf ∉ line) :
    ∃ above current,
      SameLines o o' (Writer.textLines o w lines) (Writer.textLines o' w' lines) above current := by
  induction lines generalizing w w' above current with
  | nil => exact ⟨above, current, h⟩
  | cons line lines ih =>
      rw [List.forall_mem_cons] at hlines
      exact ih ((h.newline ho ho' 0).push hlines.1 rfl rfl rfl rfl rfl rfl) hlines.2

end SameLines

/-- Layouts that differ in the unit of indentation alone have the same lines at every step. -/
theorem sameLines_inStep {o o' : LayoutOptions} (hwidth : o.width = o'.width)
    (hsize : 0 < o.indentSize) (hsame : o.indentSize = o'.indentSize) (ho : IsNewline o.newline)
    (ho' : IsNewline o'.newline) :
    InStep o o' fun w w' => ∃ above current, SameLines o o' w w' above current where
  width := hwidth
  column := by
    rintro w w' ⟨above, current, h⟩
    rw [column, column, h.start_eq, h.pending_eq, h.col_eq, hsame]
  newline := by
    rintro w w' indent ⟨above, current, h⟩
    exact ⟨_, _, h.newline ho ho' indent⟩
  text := by
    rintro w w' s ⟨above, current, h⟩
    have hlines : ∀ line ∈ Bytes.split Bytes.lf s, Bytes.lf ∉ line := Bytes.not_mem_of_split s
    obtain ⟨first, rest, hsplit⟩ := List.exists_cons_of_ne_nil (Bytes.split_ne_nil Bytes.lf s)
    rw [hsplit, List.forall_mem_cons] at hlines
    simp only [text, hsplit]
    split
    · exact h.textLines ho ho' hlines.2
    · obtain ⟨started, hstarted⟩ := h.startLine hsize hsame
      have hpushed : SameLines o o'
          { (w.startLine o).push first with col := (w.startLine o).col + Cells.width first }
          { (w'.startLine o').push first with col := (w'.startLine o').col + Cells.width first }
          above ⟨started.level, started.rest ++ first⟩ := by
        refine hstarted.push hlines.1 rfl rfl ?_ hstarted.pending_eq w.atLineStart_startLine
          w'.atLineStart_startLine
        simp only [hstarted.col_eq]
      exact hpushed.textLines ho ho' hlines.2
  spaces := by
    rintro w w' n ⟨above, current, h⟩
    rw [spaces, spaces]
    split
    · exact ⟨above, current, h⟩
    · obtain ⟨started, hstarted⟩ := h.startLine hsize hsame
      refine ⟨_, _, hstarted.push (s := List.replicate n.toNat Bytes.space) ?_ rfl rfl ?_
        hstarted.pending_eq w.atLineStart_startLine w'.atLineStart_startLine⟩
      · exact fun hlf => absurd (List.eq_of_mem_replicate hlf) (by decide)
      · simp only [hstarted.col_eq]

end Writer

/-! ## Rendering -/

open Bytes

/-- Laid out with tabs and with spaces, whatever the other options, a document has the same lines:
each is some levels of indentation and a rest, and only the indentation is written differently. No
line ends in a blank. -/
theorem tabs_and_spaces_alike (d : Doc) (o : LayoutOptions) (ho : IsNewline o.normalize.newline) :
    let tabbed := linesOf o.normalize.newline (d.render { o with tabs := true })
    let spaced := linesOf o.normalize.newline (d.render { o with tabs := false })
    List.Forall₂ (fun t s => ∃ (n : Nat) (r : Bytes), t = List.replicate n tab ++ r ∧
        s = List.replicate (n * o.normalize.indentSize.toNat) space ++ r) tabbed spaced ∧
      ∀ line ∈ tabbed ++ spaced, Writer.Trimmed line := by
  intro tabbed spaced
  let tabs : LayoutOptions := { o.normalize with tabs := true }
  let spaces : LayoutOptions := { o.normalize with tabs := false }
  have hsize : 0 < o.normalize.indentSize := by
    rw [LayoutOptions.normalize]
    dsimp only
    split <;> omega
  have hempty (o : LayoutOptions) : Writer.HasLines o {} [] {} := ⟨rfl, fun _ => rfl⟩
  have hstep : Writer.InStep tabs spaces fun w w' => ∃ above current,
      Writer.SameLines tabs spaces w w' above current :=
    Writer.sameLines_inStep rfl hsize rfl ho ho
  have hstart : Writer.SameLines tabs spaces {} {} [] {} :=
    ⟨rfl, rfl, rfl, hempty tabs, hempty spaces, by simp⟩
  obtain ⟨above, current, hlines⟩ := hstep.write 0 false 0 d ⟨[], {}, hstart⟩
  have htabbed : tabbed = _ := hlines.first.linesOf_result ho hlines.lf_not_mem
  have hspaced : spaced = _ := hlines.second.linesOf_result ho hlines.lf_not_mem
  refine ⟨?_, ?_⟩
  · rw [htabbed, hspaced, List.forall₂_map_left_iff, List.forall₂_map_right_iff, List.forall₂_same]
    intro l hl
    refine ⟨l.trim.level, l.trim.rest, ?_, ?_⟩
    · simp [IndentedLine.bytes, LayoutOptions.indentUnit, tabs]
    · simp [IndentedLine.bytes, LayoutOptions.indentUnit, spaces]
  · rw [htabbed, hspaced, List.forall_mem_append, List.forall_mem_map, List.forall_mem_map]
    exact ⟨fun l _ => l.trimmed_trim, fun l _ => l.trimmed_trim⟩

/-- Text over two lines in a nested list, cells of unequal width in a table, and blanks where a line
ends. -/
theorem tabs_and_spaces_alike_of_table :
    let d : Doc := .concat [.text "a  ", .indent 2 (.concat [.hardLine, .text "\tb \n  c", .line,
      .table [.mk [.text "-- d"] [.text "e", .text "f"] (.text " "),
        .mk [] [.text "gh", .text "i"] .empty] [2, 0] .hardLine])]
    let o : LayoutOptions := { width := 40, indentSize := 3, newline := "\r\n" }
    let tabbed := linesOf o.normalize.newline (d.render { o with tabs := true })
    let spaced := linesOf o.normalize.newline (d.render { o with tabs := false })
    IsNewline o.normalize.newline ∧ tabbed.length = 6 ∧
      List.Forall₂ (fun t s => ∃ (n : Nat) (r : Bytes), t = List.replicate n tab ++ r ∧
        s = List.replicate (n * 3) space ++ r) tabbed spaced ∧
      ∀ line ∈ tabbed ++ spaced, Writer.Trimmed line := by
  intro d o tabbed spaced
  exact ⟨.inr rfl, by rfl, tabs_and_spaces_alike d o (.inr rfl)⟩

end VhdlStyle
