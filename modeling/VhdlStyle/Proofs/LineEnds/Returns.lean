import VhdlStyle.Doc.Layout
import VhdlStyle.Proofs.Layout.Pieces
import VhdlStyle.Source.File

/-! # Carriage returns at the ends of lines

Reading turns a CR LF pair into LF, but a line may end in further carriage returns, with blanks
among them that trimming removes. What decides is how many carriage returns stand at the end of
each line when blanks are left out of account. -/

namespace VhdlStyle.Bytes

/-- The carriage returns at the end of a text that goes on with a byte, where `n` stood at its end
before. Blanks do not count, any other byte starts anew. -/
def returnsAfter (n : Nat) (b : UInt8) : Nat :=
  if b == cr then n + 1 else if Writer.isBlank b then n else 0

/-- The carriage returns at the end of a text that is read on from one with `n` at its end. -/
def returnsAtEnd (n : Nat) (s : Bytes) : Nat := s.foldl returnsAfter n

/-- The carriage returns at the end of each line that ends in the text. -/
def lineReturns (n : Nat) : Bytes → List Nat
  | [] => []
  | b :: rest =>
    if b == lf then n :: lineReturns 0 rest else lineReturns (returnsAfter n b) rest

@[simp] theorem returnsAfter_lf (n : Nat) : returnsAfter n lf = 0 := rfl

@[simp] theorem returnsAfter_cr (n : Nat) : returnsAfter n cr = n + 1 := rfl

theorem returnsAfter_blank (n : Nat) {b : UInt8} (hb : Writer.isBlank b = true) :
    returnsAfter n b = n := by
  have hcr : b ≠ cr := by
    rintro rfl
    exact absurd hb (by decide)
  simp [returnsAfter, hcr, hb]

theorem returnsAfter_other (n : Nat) {b : UInt8} (hcr : b ≠ cr) (hb : Writer.isBlank b = false) :
    returnsAfter n b = 0 := by
  simp [returnsAfter, hcr, hb]

@[simp] theorem returnsAtEnd_nil (n : Nat) : returnsAtEnd n [] = n := rfl

@[simp] theorem returnsAtEnd_cons (n : Nat) (b : UInt8) (s : Bytes) :
    returnsAtEnd n (b :: s) = returnsAtEnd (returnsAfter n b) s := rfl

@[simp] theorem returnsAtEnd_append (n : Nat) (s t : Bytes) :
    returnsAtEnd n (s ++ t) = returnsAtEnd (returnsAtEnd n s) t := List.foldl_append

@[simp] theorem lineReturns_nil (n : Nat) : lineReturns n [] = [] := rfl

theorem lineReturns_lf (n : Nat) (s : Bytes) : lineReturns n (lf :: s) = n :: lineReturns 0 s := rfl

theorem lineReturns_cons (n : Nat) {b : UInt8} (hb : b ≠ lf) (s : Bytes) :
    lineReturns n (b :: s) = lineReturns (returnsAfter n b) s := by
  simp [lineReturns, hb]

@[simp] theorem lineReturns_append (n : Nat) (s t : Bytes) :
    lineReturns n (s ++ t) = lineReturns n s ++ lineReturns (returnsAtEnd n s) t := by
  induction s generalizing n with
  | nil => rfl
  | cons b s ih =>
      by_cases hb : b = lf
      · subst hb
        rw [List.cons_append, lineReturns_lf, lineReturns_lf, ih]
        rfl
      · rw [List.cons_append, lineReturns_cons n hb, lineReturns_cons n hb, ih]
        rfl

theorem lineReturns_of_not_mem (n : Nat) {s : Bytes} (hs : lf ∉ s) : lineReturns n s = [] := by
  induction s generalizing n with
  | nil => rfl
  | cons b s ih =>
      rw [List.mem_cons, not_or] at hs
      rw [lineReturns_cons n (Ne.symm hs.1), ih _ hs.2]

/-- No line has more carriage returns at its end than the text has bytes. -/
theorem le_of_mem_lineReturns {n k : Nat} {s : Bytes} (h : k ∈ lineReturns n s) :
    k ≤ n + s.length := by
  induction s generalizing n with
  | nil => simp at h
  | cons b s ih =>
      rw [List.length_cons]
      by_cases hb : b = lf
      · subst hb
        rw [lineReturns_lf, List.mem_cons] at h
        rcases h with rfl | h
        · omega
        · have hle := ih h
          omega
      · rw [lineReturns_cons n hb] at h
        have hle := ih h
        have hafter : returnsAfter n b ≤ n + 1 := by
          unfold returnsAfter
          split
          · omega
          · split <;> omega
        omega

/-! ## Settled texts -/

/-- No line of the text ends in a carriage return, nor does the text. -/
def isSettled (s : Bytes) : Bool := (lineReturns 0 s).all (· == 0) && returnsAtEnd 0 s == 0

theorem isSettled_iff {s : Bytes} :
    s.isSettled = true ↔ (∀ k ∈ lineReturns 0 s, k = 0) ∧ returnsAtEnd 0 s = 0 := by
  simp [isSettled]

theorem isSettled_append {s t : Bytes} (hs : s.isSettled = true) (ht : t.isSettled = true) :
    isSettled (s ++ t) = true := by
  rw [isSettled_iff] at *
  rw [lineReturns_append, returnsAtEnd_append, hs.2]
  refine ⟨?_, ht.2⟩
  rw [List.forall_mem_append]
  exact ⟨hs.1, ht.1⟩

theorem isSettled_flatten {texts : List Bytes} (h : ∀ s ∈ texts, s.isSettled = true) :
    isSettled texts.flatten = true := by
  induction texts with
  | nil => rfl
  | cons s rest ih =>
      rw [List.forall_mem_cons] at h
      exact isSettled_append h.1 (ih h.2)

theorem isSettled_of_not_mem {s : Bytes} (hs : cr ∉ s) : s.isSettled = true := by
  induction s with
  | nil => rfl
  | cons b s ih =>
      rw [List.mem_cons, not_or] at hs
      have hb : isSettled [b] = true := by
        by_cases hlf : b = lf
        · subst hlf
          rfl
        · cases hblank : Writer.isBlank b with
          | true => simp [isSettled, lineReturns, hlf, returnsAfter_blank 0 hblank]
          | false =>
              simp [isSettled, lineReturns, hlf, returnsAfter_other 0 (Ne.symm hs.1) hblank]
      exact isSettled_append hb (ih hs.2)

/-- A text on one line is settled by its last byte. -/
theorem isSettled_concat {s : Bytes} {b : UInt8} (hs : lf ∉ s) (hlf : b ≠ lf) (hcr : b ≠ cr)
    (hb : Writer.isBlank b = false) : isSettled (s ++ [b]) = true := by
  rw [isSettled_iff, lineReturns_append, returnsAtEnd_append, lineReturns_of_not_mem 0 hs]
  simp [lineReturns_cons _ hlf, returnsAfter_other _ hcr hb]

end VhdlStyle.Bytes
