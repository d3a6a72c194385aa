import Mathlib.Algebra.GroupWithZero.Nat
import VhdlStyle.Proofs.Text.Splitting
import VhdlStyle.Source.File

/-! # Positions

The index of a file lists its line feeds in order, so those before an offset come first, and
halving finds where they end. The line of an offset counts them, the column counts the bytes behind
the last of them; both fit their words as long as the content does, and they grow with the offset. -/

namespace VhdlStyle

open Bytes

/-- The order of positions: by line, and on one line by column. -/
def LineCol.Before (p q : LineCol) : Prop := p.line < q.line ∨ p.line = q.line ∧ p.col < q.col

theorem LineCol.Before.irrefl (p : LineCol) : ¬p.Before p := by
  simp [LineCol.Before]

theorem LineCol.Before.asymm {p q : LineCol} (h : p.Before q) : ¬q.Before p := by
  unfold LineCol.Before at *
  simp only [UInt32.lt_iff_toNat_lt, ← UInt32.toNat_inj] at *
  omega

namespace Source

/-! ## Halving -/

/-- Where the entries below an offset come first, halving finds the first of the others. -/
theorem placeBetween_eq {feeds : Array UInt32} {offset : UInt32} {place : Nat}
    (hsplit : ∀ i < feeds.size, feeds.getD i 0 < offset ↔ i < place) {lo hi : Nat}
    (hlo : lo ≤ place) (hhi : place ≤ hi) (hsize : hi ≤ feeds.size) :
    placeBetween feeds offset lo hi = place := by
  fun_induction placeBetween feeds offset lo hi with
  | case1 lo hi hlt middle hbelow ih =>
      have hmiddle : middle < place := (hsplit middle (by omega)).mp hbelow
      exact ih (by omega) hhi hsize
  | case2 lo hi hlt middle habove ih =>
      have hmiddle : ¬middle < place := fun h => habove ((hsplit middle (by omega)).mpr h)
      exact ih hlo (by omega) (by omega)
  | case3 lo hi hdone => omega

theorem placeOf_append {before behind : List UInt32} {offset : UInt32}
    (hbefore : ∀ feed ∈ before, feed < offset) (hbehind : ∀ feed ∈ behind, ¬feed < offset) :
    placeOf (before ++ behind).toArray offset = before.length := by
  refine placeBetween_eq (fun i hi => ?_) (Nat.zero_le _) (by simp) (Nat.le_refl _)
  rw [List.size_toArray] at hi
  have hget : (before ++ behind).toArray.getD i 0 = (before ++ behind)[i] := by
    simp [Array.getD_eq_getD_getElem?, List.getElem?_eq_getElem hi]
  rw [hget]
  by_cases hplace : i < before.length
  · rw [List.getElem_append_left hplace]
    exact iff_of_true (hbefore _ (List.getElem_mem _)) hplace
  · rw [List.getElem_append_right (Nat.le_of_not_lt hplace)]
    exact iff_of_false (hbehind _ (List.getElem_mem _)) hplace

/-! ## The index -/

theorem lineFeeds_append (offset : Nat) (s t : Bytes) :
    lineFeeds offset (s ++ t) = lineFeeds offset s ++ lineFeeds (offset + s.length) t := by
  induction s generalizing offset with
  | nil => rfl
  | cons b s ih =>
      have hnext : offset + 1 + s.length = offset + (b :: s).length := by
        rw [List.length_cons]
        omega
      by_cases hb : b = lf <;> simp [lineFeeds, hb, ih, hnext]

theorem length_lineFeeds (offset : Nat) (s : Bytes) :
    (lineFeeds offset s).length = s.count lf := by
  induction s generalizing offset with
  | nil => rfl
  | cons b s ih => by_cases hb : b = lf <;> simp [lineFeeds, hb, ih]

theorem lineFeeds_of_not_mem (offset : Nat) {s : Bytes} (hs : lf ∉ s) :
    lineFeeds offset s = [] := by
  rw [← List.length_eq_zero_iff, length_lineFeeds, List.count_eq_zero_of_not_mem hs]

/-- The index ends with the last line feed. -/
theorem lineFeeds_last (above : Bytes) {line : Bytes} (hline : lf ∉ line) :
    lineFeeds 0 (above ++ lf :: line) = lineFeeds 0 above ++ [UInt32.ofNat above.length] := by
  rw [lineFeeds_append]
  simp [lineFeeds, lineFeeds_of_not_mem _ hline]

/-- The index of a stretch holds offsets of that stretch. -/
theorem toNat_mem_lineFeeds {offset : Nat} {s : Bytes} (hfits : offset + s.length ≤ 2 ^ 32)
    {feed : UInt32} (h : feed ∈ lineFeeds offset s) :
    offset ≤ feed.toNat ∧ feed.toNat < offset + s.length := by
  induction s generalizing offset with
  | nil => simp [lineFeeds] at h
  | cons b s ih =>
      rw [List.length_cons] at hfits ⊢
      have hrest (hmem : feed ∈ lineFeeds (offset + 1) s) :
          offset ≤ feed.toNat ∧ feed.toNat < offset + (s.length + 1) := by
        have hbounds := ih (by omega) hmem
        omega
      by_cases hb : b = lf
      · have hmem : feed = UInt32.ofNat offset ∨ feed ∈ lineFeeds (offset + 1) s := by
          simpa [lineFeeds, hb] using h
        rcases hmem with rfl | hmem
        · rw [UInt32.toNat_ofNat_of_lt' (by simp [UInt32.size]; omega)]
          omega
        · exact hrest hmem
      · exact hrest (by simpa [lineFeeds, hb] using h)

/-! ## Lines -/

/-- The line of an offset starts at the front of the text or behind a line feed, and none follows
up to the offset. -/
structure StartsLine (content : Bytes) (offset start : Nat) : Prop where
  le : start ≤ offset
  opens : start = 0 ∨ content[start - 1]? = some lf
  same : ∀ i, start ≤ i → i < offset → content[i]? ≠ some lf

/-- The first line starts at the front. -/
theorem startsLine_front {content : Bytes} {offset : Nat} (h : lf ∉ content.take offset) :
    StartsLine content offset 0 := by
  refine ⟨Nat.zero_le _, .inl rfl, fun i _ hi hfeed => ?_⟩
  rw [← List.getElem?_take_of_lt hi] at hfeed
  exact h (List.mem_of_getElem? hfeed)

/-- Every other line starts behind the last line feed above it. -/
theorem startsLine_behind {content above line : Bytes} {offset : Nat}
    (hbefore : content.take offset = above ++ lf :: line) (hline : lf ∉ line)
    (hoffset : offset ≤ content.length) : StartsLine content offset (above.length + 1) := by
  have hlength : above.length + (line.length + 1) = offset := by
    have hlength := congrArg List.length hbefore
    simpa [hoffset] using hlength.symm
  refine ⟨by omega, .inr ?_, fun i hi hlt hfeed => ?_⟩
  · have hlast : above.length < offset := by omega
    rw [Nat.add_sub_cancel, ← List.getElem?_take_of_lt hlast, hbefore]
    simp
  · rw [← List.getElem?_take_of_lt hlt, hbefore, List.getElem?_append_right (by omega),
      List.getElem?_cons] at hfeed
    rw [if_neg (by omega)] at hfeed
    exact hline (List.mem_of_getElem? hfeed)

/-- The place of an offset: as many lines end before it as its line says, and its column says how
far it is from the start of its line, both counted from one. -/
structure IsPosition (content : Bytes) (offset : Nat) (p : LineCol) : Prop where
  line : p.line.toNat = (content.take offset).count lf + 1
  col : ∃ start, StartsLine content offset start ∧ p.col.toNat = offset - start + 1

/-! ## Order -/

variable {content : Bytes} {m n : Nat} {p q : LineCol}

/-- Two offsets are on one line if no line feed stands between them. -/
theorem StartsLine.unique {start start' : Nat} (h : StartsLine content m start)
    (h' : StartsLine content n start') (hmn : m ≤ n)
    (hsame : ∀ i, m ≤ i → i < n → content[i]? ≠ some lf) : start = start' := by
  have hle := h.le
  have hle' := h'.le
  rcases Nat.lt_trichotomy start start' with hlt | heq | hgt
  · -- the line feed that opens the second line would stand behind the start of the first
    have hfeed := h'.opens.resolve_left (by omega)
    by_cases hbefore : start' - 1 < m
    · exact absurd hfeed (h.same _ (by omega) hbefore)
    · exact absurd hfeed (hsame _ (by omega) (by omega))
  · exact heq
  · have hfeed := h.opens.resolve_left (by omega)
    exact absurd hfeed (h'.same _ (by omega) (by omega))

theorem IsPosition.before (hp : IsPosition content m p) (hq : IsPosition content n q)
    (hmn : m < n) : p.Before q := by
  have htake : content.take n = content.take m ++ (content.drop m).take (n - m) := by
    rw [← List.take_add, Nat.add_sub_cancel' (Nat.le_of_lt hmn)]
  have hp1 := hp.line
  have hq1 := hq.line
  rw [htake, List.count_append] at hq1
  by_cases hfeed : lf ∈ (content.drop m).take (n - m)
  · have hpos := List.count_pos_iff.mpr hfeed
    left
    rw [UInt32.lt_iff_toNat_lt]
    omega
  · rw [List.count_eq_zero_of_not_mem hfeed] at hq1
    have hsame : ∀ i, m ≤ i → i < n → content[i]? ≠ some lf := by
      intro i hmi hin hget
      apply hfeed
      rw [List.mem_iff_getElem?]
      refine ⟨i - m, ?_⟩
      rw [List.getElem?_take_of_lt (by omega), List.getElem?_drop, Nat.add_sub_cancel' hmi, hget]
    obtain ⟨start, hstart, hcol⟩ := hp.col
    obtain ⟨start', hstart', hcol'⟩ := hq.col
    obtain rfl := hstart.unique hstart' (Nat.le_of_lt hmn) hsame
    have hle := hstart.le
    right
    refine ⟨UInt32.toNat_inj.mp (by omega), ?_⟩
    rw [UInt32.lt_iff_toNat_lt]
    omega

end Source

/-! ## Resolving -/

namespace SourceFile

open Source

variable {f : SourceFile} {offset : UInt32}

/-- The line feeds before an offset are the first of the index. -/
theorem placeOf_lines (hlength : f.content.length ≤ 2 ^ 32)
    (hoffset : offset.toNat ≤ f.content.length) :
    ∃ behind, f.lines = lineFeeds 0 (f.content.take offset.toNat) ++ behind ∧
      placeOf f.lines.toArray offset = (f.content.take offset.toNat).count lf := by
  have hbefore : (f.content.take offset.toNat).length = offset.toNat := by simp [hoffset]
  have hlines : f.lines = lineFeeds 0 (f.content.take offset.toNat) ++
      lineFeeds offset.toNat (f.content.drop offset.toNat) := by
    conv_lhs => rw [lines, ← List.take_append_drop offset.toNat f.content]
    rw [lineFeeds_append, hbefore, Nat.zero_add]
  refine ⟨_, hlines, ?_⟩
  rw [hlines, placeOf_append, length_lineFeeds]
  · intro feed hfeed
    have hbounds := toNat_mem_lineFeeds (by omega) hfeed
    rw [UInt32.lt_iff_toNat_lt]
    omega
  · intro feed hfeed
    have hbounds := toNat_mem_lineFeeds (by simp; omega) hfeed
    rw [UInt32.lt_iff_toNat_lt]
    omega

/-- The column counts from the start of the line. -/
theorem exists_start (hlength : f.content.length < 2 ^ 32 - 1)
    (hoffset : offset.toNat ≤ f.content.length) :
    ∃ start : UInt32, (f.lineCol offset).col = offset - start + 1 ∧
      StartsLine f.content offset.toNat start.toNat := by
  obtain ⟨behind, hlines, hplace⟩ := placeOf_lines (by omega) hoffset
  have hcol : (f.lineCol offset).col = offset -
      (if (f.content.take offset.toNat).count lf = 0 then 0
      else f.lines.toArray.getD ((f.content.take offset.toNat).count lf - 1) 0 + 1) + 1 := by
    rw [← hplace]
    rfl
  rcases exists_last lf (f.content.take offset.toNat) with hnone | ⟨above, line, hbefore, hline⟩
  · refine ⟨0, ?_, startsLine_front hnone⟩
    rw [hcol, if_pos (List.count_eq_zero_of_not_mem hnone)]
  · have hstarts := startsLine_behind hbefore hline hoffset
    have hcount : (f.content.take offset.toNat).count lf = above.count lf + 1 := by
      simp [hbefore, List.count_eq_zero_of_not_mem hline]
    have hlast : f.lines.toArray.getD (above.count lf) 0 = UInt32.ofNat above.length := by
      rw [hlines, hbefore, lineFeeds_last above hline, ← length_lineFeeds 0 above]
      simp [Array.getD_eq_getD_getElem?]
    have hstart : (UInt32.ofNat above.length + 1).toNat = above.length + 1 := by
      have hle := hstarts.le
      rw [UInt32.toNat_add, UInt32.toNat_ofNat_of_lt' (by simp [UInt32.size]; omega)]
      simp
      omega
    refine ⟨UInt32.ofNat above.length + 1, ?_, hstart ▸ hstarts⟩
    rw [hcol, hcount, if_neg (Nat.succ_ne_zero _), Nat.add_sub_cancel, hlast]

/-- The words of a position hold what it counts. -/
theorem isPosition_lineCol (hlength : f.content.length < 2 ^ 32 - 1)
    (hoffset : offset.toNat ≤ f.content.length) :
    IsPosition f.content offset.toNat (f.lineCol offset) := by
  obtain ⟨-, -, hplace⟩ := placeOf_lines (by omega) hoffset
  obtain ⟨start, hcol, hstart⟩ := exists_start hlength hoffset
  have hcount : (f.content.take offset.toNat).count lf ≤ offset.toNat :=
    Nat.le_trans List.count_le_length (List.length_take_le _ _)
  refine ⟨?_, start.toNat, hstart, ?_⟩
  · change (UInt32.ofNat (placeOf f.lines.toArray offset + 1)).toNat = _
    rw [hplace, UInt32.toNat_ofNat_of_lt' (by simp [UInt32.size]; omega)]
  · have hle : start ≤ offset := UInt32.le_iff_toNat_le.mpr hstart.le
    rw [hcol, UInt32.toNat_add, UInt32.toNat_sub_of_le _ _ hle]
    simp
    omega

end SourceFile

open Source in
/-- Both ends of a span in a file resolve: the line of an offset is one more than the line feeds
strictly before it, its column one more than its distance from the offset behind the last of them,
and no word overflows. The positions stand in the order of the offsets, so different offsets have
different positions. -/
theorem positions_follow_offsets (t : FileTable) (s : Span) (f : SourceFile)
    (hfile : t.get? s.file = some f) (hlength : f.content.length < 2 ^ 32 - 1)
    (hstart : s.start.toNat ≤ f.content.length) (hstop : s.stop.toNat ≤ f.content.length) :
    ∃ p q, t.resolve? s = some (p, q) ∧
      IsPosition f.content s.start.toNat p ∧ IsPosition f.content s.stop.toNat q ∧
      (p.Before q ↔ s.start < s.stop) ∧ (p = q ↔ s.start = s.stop) := by
  have hp := SourceFile.isPosition_lineCol hlength hstart
  have hq := SourceFile.isPosition_lineCol hlength hstop
  refine ⟨_, _, by rw [FileTable.resolve?, hfile]; rfl, hp, hq, ?_⟩
  rw [UInt32.lt_iff_toNat_lt, ← UInt32.toNat_inj]
  rcases Nat.lt_trichotomy s.start.toNat s.stop.toNat with hlt | heq | hgt
  · have hbefore := hp.before hq hlt
    refine ⟨iff_of_true hbefore hlt, iff_of_false (fun hsame => ?_) (by omega)⟩
    rw [hsame] at hbefore
    exact LineCol.Before.irrefl _ hbefore
  · rw [UInt32.toNat_inj.mp heq]
    exact ⟨iff_of_false (LineCol.Before.irrefl _) (Nat.lt_irrefl _), iff_of_true rfl rfl⟩
  · have hbehind := hq.before hp hgt
    refine ⟨iff_of_false hbehind.asymm (by omega), iff_of_false (fun hsame => ?_) (by omega)⟩
    rw [hsame] at hbehind
    exact LineCol.Before.irrefl _ hbehind

open Source in
/-- An offset that is a line feed belongs to the line it ends, here an empty one. -/
theorem positions_follow_offsets_at_line_end :
    let f := SourceFile.ofBytes "x.vhd" "ab\ncd\n\nef"
    let t : FileTable := ⟨[f]⟩
    ∃ p q, t.resolve? ⟨0, 6, 7⟩ = some (p, q) ∧
      IsPosition f.content 6 p ∧ IsPosition f.content 7 q ∧
      (p.Before q ↔ (6 : UInt32) < 7) ∧ (p = q ↔ (6 : UInt32) = 7) := by
  intro f t
  exact positions_follow_offsets t ⟨0, 6, 7⟩ f rfl (by decide) (by decide) (by decide)

example : (SourceFile.ofBytes "x.vhd" "ab\ncd\n\nef").lineCol 6 = ⟨3, 1⟩ := by decide +kernel

end VhdlStyle
