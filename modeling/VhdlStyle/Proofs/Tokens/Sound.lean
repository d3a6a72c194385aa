import VhdlStyle.Proofs.Lexing.Derivation

/-! # Words on their own

A word is sound if its text alone is a token of its kind. The words of a source are sound, and
delimiters are known by their spelling. -/

namespace VhdlStyle

namespace Leaf

/-- The text is one token, and the token has the kind. -/
def Sound (l : Leaf) : Prop :=
  match l.text with
  | [] => False
  | b :: rest =>
    TriviaPiece.scan? b rest = none ∧ Lexeme.scan .invalid b rest = ⟨l.kind, rest.length, none⟩

variable {l : Leaf}

theorem Sound.exists_cons (h : l.Sound) : ∃ b rest, l.text = b :: rest ∧
    TriviaPiece.scan? b rest = none ∧ Lexeme.scan .invalid b rest = ⟨l.kind, rest.length, none⟩ := by
  obtain ⟨k, text⟩ := l
  cases text with
  | nil => exact h.elim
  | cons b rest => exact ⟨b, rest, rfl, h⟩

end Leaf

/-! ## Delimiters -/

/-- The kinds of delimiters. -/
def Lexeme.delimiterKinds : List Kind := delimiters.map Prod.snd

set_option maxRecDepth 10000 in
/-- Only the rule for delimiters reads words of their kinds. -/
theorem Lexeme.scan_cases (previous : Kind) (first : UInt8) (rest : Bytes) :
    scan previous first rest = delimiter first rest ∨
      (scan previous first rest).kind ∉ delimiterKinds := by
  have hother : ∀ k ∈ wordKinds ++ numberKinds ++ [.extIdent, .stringLit, .charLit, .invalid],
      k ∉ delimiterKinds := by decide
  unfold scan
  split
  · exact .inr (hother _ (by simp [word_kind]))
  · split
    · refine .inr ?_
      unfold extended
      split
      · exact hother .extIdent (by simp)
      · exact hother .invalid (by simp)
    · split
      · exact .inr (hother _ (by simp [number_kinds]))
      · split
        · refine .inr (hother _ ?_)
          exact List.mem_append_right _ (quoted_kind (by decide) (by decide) ..)
        · split
          · exact .inr (hother .charLit (by simp))
          · exact .inl rfl

namespace Leaf

open Lexeme

variable {l : Leaf}

/-- A delimiter is spelled as the table says. -/
theorem Sound.delimiter (h : l.Sound) (hk : l.kind ∈ delimiterKinds) :
    ∃ entry ∈ delimiters, entry.2 = l.kind ∧ l.text = Bytes.ofString entry.1 := by
  obtain ⟨b, rest, htext, -, hscan⟩ := h.exists_cons
  have hkind : (scan .invalid b rest).kind = l.kind := by rw [hscan]
  rcases scan_cases .invalid b rest with hdelimiter | hother
  · rw [hdelimiter] at hscan
    unfold Lexeme.delimiter at hscan
    split at hscan
    · rename_i text kind hfind
      have hentry := List.mem_of_find?_eq_some hfind
      obtain ⟨hlength, hpos, -⟩ := delimiter_bytes _ hentry
      have hfront := List.find?_some hfind
      rw [List.isPrefixOf_iff_prefix] at hfront
      simp only [Lexeme.mk.injEq, and_true] at hscan
      refine ⟨_, hentry, hscan.1, ?_⟩
      rw [htext]
      refine (hfront.eq_of_length ?_).symm
      dsimp only at hlength hpos
      simp only [List.length_cons]
      omega
    · simp at hscan
  · rw [hkind] at hother
    exact absurd hk hother

end Leaf

/-! ## The words of a source are sound -/

namespace Lexeme

theorem delimiter_tick (rest : Bytes) : delimiter '\'' rest = ⟨.tick, 0, none⟩ := rfl

theorem scan_tick (previous : Kind) (rest : Bytes) : scan previous '\'' rest =
    if opensCharacter previous rest then ⟨.charLit, 2, none⟩ else ⟨.tick, 0, none⟩ := by
  have heq : scan previous '\'' rest =
      if ((('\'' : UInt8) == '\'') && opensCharacter previous rest) = true then ⟨.charLit, 2, none⟩
      else delimiter '\'' rest := rfl
  rw [heq, delimiter_tick]
  rfl

/-- Whether a quote opens a character literal is seen from the token. -/
theorem opensCharacter_token {previous : Kind} {t r : Bytes} {k : Kind}
    (h : scan previous '\'' (t ++ r) = ⟨k, t.length, none⟩) :
    opensCharacter .invalid t = opensCharacter previous (t ++ r) := by
  rw [scan_tick] at h
  cases hopens : opensCharacter previous (t ++ r) with
  | false =>
      rw [hopens] at h
      have hlength : 0 = t.length := congrArg Lexeme.more h
      rw [List.eq_nil_of_length_eq_zero hlength.symm]
      rfl
  | true =>
      rw [hopens] at h
      have hlength : 2 = t.length := congrArg Lexeme.more h
      rw [opensCharacter_eq, Bool.and_eq_true, beq_iff_eq,
        List.getElem?_append_left (by omega)] at hopens
      rw [opensCharacter_eq, hopens.2]
      rfl

end Lexeme

/-- Only the first two bytes decide whether trivia starts. -/
theorem TriviaPiece.scan?_eq_none {first : UInt8} {rest : Bytes} : scan? first rest = none ↔
    isBlank first = false ∧ first ≠ Bytes.lf ∧
      (first = ('-' : UInt8) → rest.head? ≠ some ('-' : UInt8)) ∧
      (first = ('/' : UInt8) → rest.head? ≠ some ('*' : UInt8)) := by
  unfold scan?
  simp only [Bool.and_eq_true, beq_iff_eq]
  by_cases hblank : isBlank first = true
  · rw [if_pos hblank]
    simp [hblank]
  · rw [if_neg hblank]
    by_cases hnewline : first = Bytes.lf
    · rw [if_pos hnewline]
      simp [hnewline]
    · rw [if_neg hnewline]
      by_cases hline : first = ('-' : UInt8) ∧ rest.head? = some ('-' : UInt8)
      · rw [if_pos hline]
        simp [hline]
      · rw [if_neg hline]
        by_cases hblock : first = ('/' : UInt8) ∧ rest.head? = some ('*' : UInt8)
        · rw [if_pos hblock]
          simp [hblock]
        · rw [if_neg hblock]
          simp_all

theorem TriviaPiece.scan?_prefix {first : UInt8} {t r : Bytes} (h : scan? first (t ++ r) = none) :
    scan? first t = none := by
  rw [scan?_eq_none] at h ⊢
  cases t with
  | nil => simp [h.1, h.2.1]
  | cons b t => exact h

/-- The words of a text are sound. -/
theorem Lexed.sound {previous : Kind} {text : Bytes} {words : List Leaf}
    (h : Lexed previous text words) : ∀ w ∈ words, w.Sound := by
  induction h with
  | done => simp
  | trivia _ _ ih => exact ih
  | word hplain hscan _ ih =>
      rw [List.forall_mem_cons]
      refine ⟨⟨TriviaPiece.scan?_prefix hplain, ?_⟩, ih⟩
      rename_i k first t r words _
      have hshort : Lexeme.scan .invalid first (t ++ []) = ⟨k, t.length, none⟩ := by
        refine Lexeme.scan_append hscan (by simp) (by simp) ?_
        rintro rfl
        rw [List.append_nil]
        exact Lexeme.opensCharacter_token hscan
      rwa [List.append_nil] at hshort

end VhdlStyle
