import VhdlStyle.Proofs.Layout.Writing

/-! # Line ends in a row

Two line ends in a row are a blank line, three of them are one blank line too many. A text is read
byte by byte with the line ends since the last byte that shows something; blanks and carriage
returns do not count. -/

namespace VhdlStyle

namespace Bytes

/-! ## Lines that show something -/

/-- The byte is neither blank nor part of a line end. -/
def isInk (b : UInt8) : Bool := !Writer.isBlank b && b != cr && b != lf

/-- Every line of the text shows something; `begun` says that the first one has done so before. -/
def inked (begun : Bool) : Bytes → Bool
  | [] => begun
  | b :: rest => if b == lf then begun && inked false rest else inked (begun || isInk b) rest

theorem isInk_iff {b : UInt8} : isInk b = true ↔ Writer.isBlank b = false ∧ b ≠ cr ∧ b ≠ lf := by
  simp [isInk, and_assoc]

theorem inked_cons {b : UInt8} (hb : b ≠ lf) (begun : Bool) (rest : Bytes) :
    inked begun (b :: rest) = inked (begun || isInk b) rest := by simp [inked, hb]

/-- What is left of a line after its ink is free but for line ends. -/
theorem inked_of_not_mem {s : Bytes} (hs : lf ∉ s) : inked true s = true := by
  induction s with
  | nil => rfl
  | cons b s ih =>
      rw [List.mem_cons, not_or] at hs
      rw [inked_cons (Ne.symm hs.1), Bool.true_or]
      exact ih hs.2

theorem inked_of_inked_false {s : Bytes} (h : inked false s = true) (begun : Bool) :
    inked begun s = true := by
  induction s generalizing begun with
  | nil => exact absurd h Bool.false_ne_true
  | cons b s ih =>
      by_cases hb : b = lf
      · simp [inked, hb] at h
      · rw [inked_cons hb, Bool.false_or] at h
        rw [inked_cons hb]
        cases hink : isInk b with
        | false => exact ih (hink ▸ h) _
        | true => simpa [hink] using h

theorem inked_append {begun : Bool} {s t : Bytes} (hs : inked begun s = true)
    (ht : inked true t = true) : inked begun (s ++ t) = true := by
  induction s generalizing begun with
  | nil =>
      rw [inked] at hs
      rw [hs, List.nil_append]
      exact ht
  | cons b s ih =>
      rw [List.cons_append]
      by_cases hb : b = lf
      · simp only [inked, hb, beq_self_eq_true, if_true, Bool.and_eq_true] at hs ⊢
        exact ⟨hs.1, ih hs.2⟩
      · rw [inked_cons hb] at hs ⊢
        exact ih hs

/-- One line that starts with ink. -/
theorem inked_of_isInk {b : UInt8} {rest : Bytes} (hb : isInk b = true) (hrest : lf ∉ rest) :
    inked false (b :: rest) = true := by
  rw [inked_cons (isInk_iff.mp hb).2.2, hb, Bool.or_true]
  exact inked_of_not_mem hrest

theorem exists_ink_of_split {begun : Bool} {s first : Bytes} {rest : List Bytes}
    (h : inked begun s = true) (hsplit : split lf s = first :: rest) :
    (begun = true ∨ ∃ b ∈ first, isInk b = true) ∧ ∀ line ∈ rest, ∃ b ∈ line, isInk b = true := by
  induction s generalizing begun first rest with
  | nil =>
      obtain ⟨rfl, rfl⟩ := List.cons.inj hsplit
      exact ⟨.inl h, by simp⟩
  | cons b s ih =>
      obtain ⟨next, others, hs⟩ := List.exists_cons_of_ne_nil (split_ne_nil lf s)
      by_cases hb : b = lf
      · simp only [inked, hb, beq_self_eq_true, if_true, Bool.and_eq_true] at h
        simp only [split, hb, beq_self_eq_true, if_true, hs, List.cons.injEq] at hsplit
        obtain ⟨hnext, hothers⟩ := ih h.2 hs
        rw [← hsplit.2, List.forall_mem_cons]
        exact ⟨.inl h.1, hnext.resolve_left Bool.false_ne_true, hothers⟩
      · rw [inked_cons hb] at h
        simp only [split, beq_iff_eq, hb, if_false, hs, List.cons.injEq] at hsplit
        obtain ⟨hnext, hothers⟩ := ih h hs
        rw [← hsplit.1, ← hsplit.2]
        refine ⟨?_, hothers⟩
        rcases hnext with hbegun | ⟨c, hc, hink⟩
        · rw [Bool.or_eq_true] at hbegun
          exact hbegun.imp_right fun hink => ⟨b, List.mem_cons_self, hink⟩
        · exact .inr ⟨c, List.mem_cons_of_mem b hc, hink⟩

/-! ## Counting line ends -/

/-- The line ends in a row behind a byte, where there were `k` before it; three are too many. -/
def gapStep (k : Nat) (b : UInt8) : Option Nat :=
  if b == lf then if k < 2 then some (k + 1) else none else some (if isInk b then 0 else k)

/-- The line ends in a row at the end of a text, where there were `k` before it; `none` if there
are ever more than two. -/
def gaps (k : Nat) (s : Bytes) : Option Nat := s.foldlM gapStep k

@[simp] theorem gaps_nil (k : Nat) : gaps k [] = some k := rfl

@[simp] theorem gaps_append (k : Nat) (s t : Bytes) :
    gaps k (s ++ t) = (gaps k s).bind fun n => gaps n t := List.foldlM_append

theorem gaps_cons {b : UInt8} (hb : b ≠ lf) (k : Nat) (s : Bytes) :
    gaps k (b :: s) = gaps (if isInk b then 0 else k) s := by
  simp [gaps, gapStep, hb]

theorem gaps_of_not_mem {s : Bytes} (hs : lf ∉ s) (k : Nat) : ∃ n ≤ k, gaps k s = some n := by
  induction s generalizing k with
  | nil => exact ⟨k, Nat.le_refl _, rfl⟩
  | cons b s ih =>
      rw [List.mem_cons, not_or] at hs
      obtain ⟨n, hn, hgaps⟩ := ih hs.2 (if isInk b then 0 else k)
      refine ⟨n, hn.trans (by split <;> omega), ?_⟩
      rw [gaps_cons (Ne.symm hs.1)]
      exact hgaps

theorem gaps_of_ink {s : Bytes} (hs : lf ∉ s) (hink : ∃ b ∈ s, isInk b = true) (k : Nat) :
    gaps k s = some 0 := by
  induction s generalizing k with
  | nil => simp at hink
  | cons b s ih =>
      rw [List.mem_cons, not_or] at hs
      rw [gaps_cons (Ne.symm hs.1)]
      cases hb : isInk b with
      | true =>
          obtain ⟨n, hn, hgaps⟩ := gaps_of_not_mem hs.2 0
          rw [if_pos rfl, hgaps, Nat.le_zero.mp hn]
      | false =>
          obtain ⟨c, hc, hinkc⟩ := hink
          rcases List.mem_cons.mp hc with rfl | hc
          · simp [hb] at hinkc
          · exact ih hs.2 ⟨c, hc, hinkc⟩ _

theorem gaps_newline {newline : Bytes} (h : IsNewline newline) (k : Nat) :
    gaps k newline = if k < 2 then some (k + 1) else none := by
  have hlf : gaps k [lf] = if k < 2 then some (k + 1) else none := by
    simp only [gaps, gapStep, List.foldlM_cons, List.foldlM_nil, beq_self_eq_true, if_true]
    split <;> rfl
  rcases h with rfl | rfl
  · exact hlf
  · have hcr : gaps k (cr :: [lf]) = gaps k [lf] := gaps_cons (by decide) k [lf]
    exact hcr.trans hlf

end Bytes

/-! ## Texts as they are written -/

namespace Piece

open Bytes

variable {newline s line : Bytes}

theorem exists_ink_trimRight (h : ∃ b ∈ line, isInk b = true) :
    ∃ b ∈ trimRight Writer.isBlank line, isInk b = true := by
  obtain ⟨b, hb, hink⟩ := h
  rw [← Writer.trimRight_append line, List.mem_append] at hb
  refine ⟨b, hb.resolve_right fun hblank => ?_, hink⟩
  have hyes := List.mem_rtakeWhile_imp hblank
  rw [(isInk_iff.mp hink).1] at hyes
  exact Bool.false_ne_true hyes

theorem lf_not_mem_trimRight (h : lf ∉ line) : lf ∉ trimRight Writer.isBlank line := by
  intro hmem
  rw [← Writer.trimRight_append line] at h
  exact h (List.mem_append_left _ hmem)

/-- A text on one line adds no line end. -/
theorem gaps_written_line (hs : lf ∉ s) (k : Nat) :
    ∃ n ≤ k, gaps k (written newline s) = some n := by
  rw [written_eq (split_of_not_mem hs), List.flatMap_nil, List.append_nil]
  exact gaps_of_not_mem (lf_not_mem_trimRight hs) k

/-- After a text whose lines all show something no line end is left. -/
theorem gaps_written (hnewline : IsNewline newline) (hs : inked false s = true) (k : Nat) :
    gaps k (written newline s) = some 0 := by
  obtain ⟨first, rest, hsplit⟩ := List.exists_cons_of_ne_nil (split_ne_nil lf s)
  obtain ⟨hfirst, hrest⟩ := exists_ink_of_split hs hsplit
  have hnone : ∀ line ∈ split lf s, lf ∉ line := not_mem_of_split s
  rw [hsplit, List.forall_mem_cons] at hnone
  have hline {line : Bytes} (hlf : lf ∉ line) (hink : ∃ b ∈ line, isInk b = true) (j : Nat) :
      gaps j (trimRight Writer.isBlank line) = some 0 :=
    gaps_of_ink (lf_not_mem_trimRight hlf) (exists_ink_trimRight hink) j
  rw [written_eq hsplit, gaps_append, hline hnone.1 (hfirst.resolve_left Bool.false_ne_true),
    Option.bind_some]
  -- each further line starts with one line end and shows something
  replace hnone := hnone.2
  clear hsplit hfirst hs
  induction rest with
  | nil => rfl
  | cons line rest ih =>
      rw [List.forall_mem_cons] at hrest hnone
      rw [List.flatMap_cons, gaps_append, gaps_append, gaps_newline hnewline]
      simp only [Nat.zero_lt_two, if_true, Option.bind_some, hline hnone.1 hrest.1]
      exact ih hrest.2 hnone.2

end Piece

/-! ## Texts without superfluous blank lines -/

namespace Bytes

/-- The text does not start with a line end, ends with exactly one, and has no two blank lines one
after the other. -/
structure WellSpaced (newline text : Bytes) : Prop where
  start : ¬ newline <+: text
  ends : newline <:+ text
  once : ¬ newline ++ newline <:+ text
  blank : ¬ newline ++ newline ++ newline <:+: text

variable {newline text : Bytes} (hnewline : IsNewline newline)

include hnewline

/-- Two line ends before a text that starts with one are three. -/
theorem newline_not_first {n : Nat} (h : gaps 2 text = some n) : ¬ newline <+: text := by
  rintro ⟨rest, rfl⟩
  simp [gaps_newline hnewline] at h

theorem newline_not_last {k : Nat} (h : gaps k text = some 0) : ¬ newline <:+ text := by
  rintro ⟨front, rfl⟩
  rw [gaps_append, Option.bind_eq_some_iff] at h
  obtain ⟨n, -, hn⟩ := h
  rw [gaps_newline hnewline] at hn
  split at hn
  · simp at hn
  · simp at hn

theorem not_two_blanks {k n : Nat} (h : gaps k text = some n) :
    ¬ newline ++ newline ++ newline <:+: text := by
  rintro ⟨front, rest, rfl⟩
  simp only [gaps_append, Option.bind_eq_some_iff, gaps_newline hnewline] at h
  obtain ⟨after, ⟨k₀, -, k₂, ⟨k₁, hone, htwo⟩, hthree⟩, -⟩ := h
  split at hone
  · split at htwo
    · split at hthree
      · simp only [Option.some.injEq] at hone htwo
        omega
      · simp at hthree
    · simp at htwo
  · simp at hone

/-- A text that neither starts nor ends with a line end, with the line end of its last line. -/
theorem wellSpaced_of_gaps (h : gaps 2 text = some 0) : WellSpaced newline (text ++ newline) := by
  have hall : gaps 2 (text ++ newline) = some 1 := by
    rw [gaps_append, h]
    exact gaps_newline hnewline 0
  refine ⟨newline_not_first hnewline hall, List.suffix_append _ _, ?_,
    not_two_blanks hnewline hall⟩
  rintro ⟨front, hfront⟩
  rw [← List.append_assoc, List.append_left_inj] at hfront
  exact newline_not_last hnewline h ⟨front, hfront⟩

end Bytes

end VhdlStyle
