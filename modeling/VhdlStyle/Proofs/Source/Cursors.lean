import Mathlib.Algebra.GroupWithZero.Nat
import Mathlib.Data.List.Infix
import VhdlStyle.Source.Cursor

/-! # Cursors stay in their file

Every move keeps the offset of a cursor within its file. Looking and skipping ahead add a 32-bit
word to the offset: they reach the place they should unless the sum wraps around, and then they
reach one that lies behind. -/

namespace VhdlStyle

/-- What is cut out of a content is a stretch of it. -/
theorem Span.slice?_eq_some_iff {s : Span} {content text : Bytes} : s.slice? content = some text ↔
    s.start.toNat ≤ s.stop.toNat ∧ s.stop.toNat ≤ content.length ∧
      (content.drop s.start.toNat).take (s.stop.toNat - s.start.toNat) = text := by
  rw [slice?]
  split
  case isTrue h =>
    simp only [Bool.or_eq_true, decide_eq_true_eq, GT.gt, UInt32.lt_iff_toNat_lt] at h
    simp only [reduceCtorEq, false_iff]
    omega
  case isFalse h =>
    simp only [Bool.or_eq_true, decide_eq_true_eq, GT.gt, UInt32.lt_iff_toNat_lt] at h
    rw [Option.some_inj]
    exact ⟨fun htext => ⟨by omega, by omega, htext⟩, fun htext => htext.2.2⟩

theorem Span.isSome_slice?_iff {s : Span} {content : Bytes} : (s.slice? content).isSome ↔
    s.start.toNat ≤ s.stop.toNat ∧ s.stop.toNat ≤ content.length := by
  simp only [Option.isSome_iff_exists, slice?_eq_some_iff]
  exact ⟨fun ⟨_, hstart, hstop, _⟩ => ⟨hstart, hstop⟩,
    fun ⟨hstart, hstop⟩ => ⟨_, hstart, hstop, rfl⟩⟩

namespace Cursor

/-- The cursor stands in the file or at its end; offsets are long enough for the file. -/
structure Inside (f : SourceFile) (c : Cursor) : Prop where
  content : c.content = f.content
  short : f.content.length < 2 ^ 32
  offset_le : c.offset.toNat ≤ f.content.length

/-- The stretch of the content that is compared with a text. -/
def window (c : Cursor) (text : Bytes) : Span :=
  ⟨c.file, c.offset, c.offset + UInt32.ofNat text.length⟩

/-- A comparison reads nothing outside the content: the window ends behind it, so that nothing is
read, or it is a stretch of it. -/
def ComparesInside (c : Cursor) (text : Bytes) : Prop :=
  c.limit < (c.window text).stop ∨ ((c.window text).slice? c.content).isSome

variable {f : SourceFile} {c : Cursor} {m n : UInt32} {text : Bytes}

/-! ## Places -/

theorem Inside.toNat_limit (h : c.Inside f) : c.limit.toNat = f.content.length := by
  rw [limit, h.content]
  exact UInt32.toNat_ofNat_of_lt' h.short

theorem Inside.move (h : c.Inside f) (hm : m.toNat ≤ f.content.length) :
    Inside f { c with offset := m } :=
  ⟨h.content, h.short, hm⟩

theorem toNat_offset_add (h : c.offset.toNat + n.toNat < 2 ^ 32) :
    (c.offset + n).toNat = c.offset.toNat + n.toNat := by
  rw [UInt32.toNat_add, Nat.mod_eq_of_lt h]

/-- A sum that wraps around lies behind the offset. -/
theorem toNat_offset_add_of_le (h : 2 ^ 32 ≤ c.offset.toNat + n.toNat) :
    (c.offset + n).toNat = c.offset.toNat + n.toNat - 2 ^ 32 ∧
      (c.offset + n).toNat < c.offset.toNat := by
  have hoffset := c.offset.toNat_lt
  have hn := n.toNat_lt
  rw [UInt32.toNat_add]
  omega

theorem Inside.move_by (h : c.Inside f) (count : Nat)
    (hcount : c.offset.toNat + count ≤ f.content.length) :
    (c.offset + UInt32.ofNat count).toNat = c.offset.toNat + count := by
  have hshort := h.short
  have hword : (UInt32.ofNat count).toNat = count :=
    UInt32.toNat_ofNat_of_lt' (by simp only [UInt32.size]; omega)
  rw [toNat_offset_add (by omega), hword]

/-! ## Looking ahead -/

theorem Inside.peekAt_eq (h : c.Inside f) (n : UInt32) :
    c.peekAt n = f.content.getD (c.offset + n).toNat 0 := by
  rw [peekAt, h.content]
  split
  case isTrue hend =>
    rw [UInt32.le_iff_toNat_le, h.toNat_limit] at hend
    rw [List.getD_eq_getElem?_getD, List.getElem?_eq_none hend]
    rfl
  case isFalse => rfl

theorem Inside.toNat_skip (h : c.Inside f) (n : UInt32) :
    (c.skip n).offset.toNat = min (c.offset + n).toNat f.content.length := by
  have hskip : (c.skip n).offset = if c.offset + n ≤ c.limit then c.offset + n else c.limit := rfl
  rw [hskip, ← h.toNat_limit]
  split
  case isTrue hle => exact (Nat.min_eq_left (UInt32.le_iff_toNat_le.mp hle)).symm
  case isFalse hle =>
    rw [UInt32.le_iff_toNat_le] at hle
    exact (Nat.min_eq_right (by omega)).symm

/-! ## Comparing -/

/-- The window of a text leaves the content only when it wraps around. -/
theorem Inside.comparesInside_iff (h : c.Inside f) :
    c.ComparesInside text ↔ c.offset.toNat + text.length % 2 ^ 32 < 2 ^ 32 := by
  have hle := h.offset_le
  have hlength : (UInt32.ofNat text.length).toNat = text.length % 2 ^ 32 := UInt32.toNat_ofNat'
  rw [ComparesInside, UInt32.lt_iff_toNat_lt, h.toNat_limit, Span.isSome_slice?_iff, h.content,
    window, ← hlength]
  dsimp only
  rcases Nat.lt_or_ge (c.offset.toNat + (UInt32.ofNat text.length).toNat) (2 ^ 32) with hlt | hge
  · rw [toNat_offset_add hlt]
    omega
  · have hbehind := (toNat_offset_add_of_le hge).2
    omega

/-- A text matches exactly when the content goes on with it. -/
theorem Inside.matches?_iff (h : c.Inside f) :
    c.matches? text = true ↔ text <+: f.content.drop c.offset.toNat := by
  have hmatches : c.matches? text = true ↔ ¬c.limit < c.offset + UInt32.ofNat text.length ∧
      (c.window text).slice? c.content = some text := by
    simp [matches?, window]
  rw [hmatches, UInt32.lt_iff_toNat_lt, h.toNat_limit, Span.slice?_eq_some_iff, h.content, window]
  dsimp only
  constructor
  · rintro ⟨-, -, -, htext⟩
    rw [← htext]
    exact List.take_prefix _ _
  · intro htext
    have hlength := htext.length_le
    rw [List.length_drop] at hlength
    have hle := h.offset_le
    have hstop := h.move_by text.length (by omega)
    rw [hstop, Nat.add_sub_cancel_left]
    exact ⟨by omega, by omega, by omega, (List.prefix_iff_eq_take.mp htext).symm⟩

/-! ## Moves -/

/-- Before the end there is room for one more byte. -/
theorem Inside.succ (h : c.Inside f) (hend : c.atEnd = false) :
    Inside f { c with offset := c.offset + 1 } := by
  have hlt : c.offset.toNat < f.content.length := by
    rw [← h.toNat_limit, ← UInt32.lt_iff_toNat_lt]
    simpa [atEnd] using hend
  have hnext := h.move_by 1 hlt
  exact h.move (hnext.trans_le hlt)

theorem Inside.bump (h : c.Inside f) : c.bump.2.Inside f := by
  rw [Cursor.bump]
  split
  case isTrue => exact h
  case isFalse hend => exact h.succ (Bool.not_eq_true _ ▸ hend)

theorem Inside.skip (h : c.Inside f) (n : UInt32) : (c.skip n).Inside f := by
  refine h.move (m := (c.skip n).offset) ?_
  rw [h.toNat_skip]
  exact Nat.min_le_right _ _

theorem Inside.eat (h : c.Inside f) (b : UInt8) : (c.eat b).2.Inside f := by
  rw [Cursor.eat]
  split
  case isTrue hnext => exact h.succ (by simpa using (Bool.and_eq_true_iff.mp hnext).2)
  case isFalse => exact h

theorem Inside.toNat_eatText (h : c.Inside f) (htext : c.matches? text = true) :
    (c.eatText text).2.offset.toNat = c.offset.toNat + text.length ∧
      c.offset.toNat + text.length ≤ f.content.length := by
  have hlength := (h.matches?_iff.mp htext).length_le
  rw [List.length_drop] at hlength
  have hle := h.offset_le
  rw [Cursor.eatText, if_pos htext]
  exact ⟨h.move_by _ (by omega), by omega⟩

theorem Inside.eatText (h : c.Inside f) (text : Bytes) : (c.eatText text).2.Inside f := by
  cases htext : c.matches? text with
  | false => simpa [Cursor.eatText, htext] using h
  | true =>
      obtain ⟨hoffset, hle⟩ := h.toNat_eatText htext
      have hcontent : (c.eatText text).2.content = c.content := by simp [Cursor.eatText, htext]
      exact ⟨hcontent.trans h.content, h.short, hoffset ▸ hle⟩

theorem Inside.eatWhile (h : c.Inside f) (p : UInt8 → Bool) : (c.eatWhile p).2.Inside f := by
  have hcount := (List.takeWhile_prefix p (l := c.content.drop c.offset.toNat)).length_le
  rw [List.length_drop, h.content] at hcount
  have hle := h.offset_le
  refine h.move ?_
  rw [h.content, h.move_by _ (by omega)]
  omega

/-! ## Walks -/

/-- What can be done to a cursor besides looking; a reset goes back to one of the marks. -/
inductive Move where
  | bump
  | skip (n : UInt32)
  | eat (b : UInt8)
  | eatText (text : Bytes)
  | eatWhile (p : UInt8 → Bool)
  | mark
  | reset (place : Nat)

/-- A cursor and the marks taken so far. -/
structure Walk where
  cursor : Cursor
  marks : List UInt32 := []

/-- Makes a move; a reset to a mark that was not taken is none. -/
def Walk.step (w : Walk) : Move → Walk
  | .bump => { w with cursor := w.cursor.bump.2 }
  | .skip n => { w with cursor := w.cursor.skip n }
  | .eat b => { w with cursor := (w.cursor.eat b).2 }
  | .eatText text => { w with cursor := (w.cursor.eatText text).2 }
  | .eatWhile p => { w with cursor := (w.cursor.eatWhile p).2 }
  | .mark => { w with marks := w.marks ++ [w.cursor.offset] }
  | .reset place =>
    match w.marks[place]? with
    | some mark => { w with cursor := w.cursor.reset mark }
    | none => w

/-- The cursor of a file after some moves. -/
def afterMoves (f : SourceFile) (moves : List Move) : Cursor :=
  (moves.foldl Walk.step { cursor := ofFile f }).cursor

/-- The cursor and the marks are in the file. -/
structure Walk.Inside (f : SourceFile) (w : Walk) : Prop where
  cursor : w.cursor.Inside f
  marks : ∀ mark ∈ w.marks, mark.toNat ≤ f.content.length

theorem Walk.Inside.step {w : Walk} (h : w.Inside f) (move : Move) : (w.step move).Inside f := by
  cases move with
  | bump => exact ⟨h.cursor.bump, h.marks⟩
  | skip n => exact ⟨h.cursor.skip n, h.marks⟩
  | eat b => exact ⟨h.cursor.eat b, h.marks⟩
  | eatText text => exact ⟨h.cursor.eatText text, h.marks⟩
  | eatWhile p => exact ⟨h.cursor.eatWhile p, h.marks⟩
  | mark =>
      refine ⟨h.cursor, List.forall_mem_append.mpr ⟨h.marks, ?_⟩⟩
      exact List.forall_mem_singleton.mpr h.cursor.offset_le
  | reset place =>
      rw [Walk.step]
      split
      case h_1 mark hmark =>
        exact ⟨h.cursor.move (h.marks mark (List.mem_of_getElem? hmark)), h.marks⟩
      case h_2 => exact h

theorem inside_afterMoves (hlength : f.content.length < 2 ^ 32) (moves : List Move) :
    (afterMoves f moves).Inside f := by
  have hwalk (w : Walk) (h : w.Inside f) : (moves.foldl Walk.step w).Inside f := by
    induction moves generalizing w with
    | nil => exact h
    | cons move moves ih => exact ih (w.step move) (h.step move)
  exact (hwalk _ ⟨⟨rfl, hlength, Nat.zero_le _⟩, by simp⟩).cursor

end Cursor

/-- After any moves the cursor is in its file. Looking and skipping ahead reach the place they
should, the skip no further than the end, exactly when the sum of offset and argument does not wrap
around; a sum that does is taken for a place behind the cursor. A text matches, and is eaten,
exactly when the content goes on with it; the comparison stays in the content exactly when the end
of the text does not wrap around. -/
theorem cursor_stays_inside (f : SourceFile) (hlength : f.content.length < 2 ^ 32)
    (moves : List Cursor.Move) :
    let c := Cursor.afterMoves f moves
    c.offset ≤ c.limit ∧ c.limit.toNat = f.content.length ∧
    (∀ n : UInt32, let place := c.offset.toNat + n.toNat
      (place < 2 ^ 32 → c.peekAt n = f.content.getD place 0 ∧
        (c.skip n).offset.toNat = min place f.content.length) ∧
      (2 ^ 32 ≤ place → c.peekAt n = f.content.getD (place - 2 ^ 32) 0 ∧
        (c.skip n).offset.toNat = place - 2 ^ 32) ∧
      (c.offset ≤ (c.skip n).offset ↔ place < 2 ^ 32)) ∧
    ∀ text : Bytes,
      (c.matches? text = true ↔ text <+: f.content.drop c.offset.toNat) ∧
      (c.eatText text).1 = c.matches? text ∧
      (c.ComparesInside text ↔ c.offset.toNat + text.length % 2 ^ 32 < 2 ^ 32) := by
  intro c
  have h : c.Inside f := Cursor.inside_afterMoves hlength moves
  have hle := h.offset_le
  refine ⟨?_, h.toNat_limit, fun n => ?_, fun text => ⟨h.matches?_iff, ?_, h.comparesInside_iff⟩⟩
  · rwa [UInt32.le_iff_toNat_le, h.toNat_limit]
  · intro place
    have hskip := h.toNat_skip n
    rw [h.peekAt_eq, UInt32.le_iff_toNat_le, hskip]
    rcases Nat.lt_or_ge place (2 ^ 32) with hlt | hge
    · rw [Cursor.toNat_offset_add hlt]
      exact ⟨fun _ => ⟨rfl, rfl⟩, fun hge => absurd hlt (Nat.not_lt.mpr hge),
        iff_of_true (Nat.le_min.mpr ⟨Nat.le_add_right _ _, hle⟩) hlt⟩
    · obtain ⟨hplace, hbehind⟩ := Cursor.toNat_offset_add_of_le hge
      have hmin : min (c.offset + n).toNat f.content.length = (c.offset + n).toNat :=
        Nat.min_eq_left (Nat.le_of_lt (Nat.lt_of_lt_of_le hbehind hle))
      rw [hmin]
      exact ⟨fun hlt => absurd hlt (Nat.not_lt.mpr hge), fun _ => ⟨by rw [hplace], hplace⟩,
        iff_of_false (Nat.not_le.mpr hbehind) (Nat.not_lt.mpr hge)⟩
  · rw [Cursor.eatText]
    cases c.matches? text <;> rfl

/-- Behind the first of two bytes. -/
theorem cursor_stays_inside_behind_one :
    let f := SourceFile.ofBytes "a.vhd" "ab"
    let c := Cursor.afterMoves f [.bump, .mark, .skip 7, .reset 0]
    c.offset = 1 ∧ c.peekAt 1 = 0 ∧ (c.skip 7).offset.toNat = 2 ∧ c.matches? "b" = true := by
  intro f c
  obtain ⟨-, -, hahead, htext⟩ :=
    cursor_stays_inside f (by decide) [.bump, .mark, .skip 7, .reset 0]
  have hpeek := ((hahead 1).1 (by decide)).1
  have hskip := ((hahead 7).1 (by decide)).2
  exact ⟨by decide, hpeek.trans (by decide), hskip.trans (by decide),
    (htext "b").1.mpr (by decide)⟩

/-- Far ahead of the second byte lies the first, and a skip that far goes back to it. -/
theorem skip_far_goes_back :
    let c := Cursor.afterMoves (SourceFile.ofBytes "a.vhd" "ab") [.bump]
    c.peekAt 0xFFFFFFFF = ('a' : UInt8) ∧ (c.skip 0xFFFFFFFF).offset < c.offset := by
  decide

end VhdlStyle
