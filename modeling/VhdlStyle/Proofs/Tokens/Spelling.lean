import VhdlStyle.Proofs.Comments.Scanned
import VhdlStyle.Proofs.Tokens.Edges

/-! # Tokens with their spelling

A tree keeps the words it is made of, but not the delimiters that its form says, and it keeps the
number and the unit of a physical literal as one word. Both come back from the kinds alone: the
tokens of a source, broken or not, spell those delimiters in one way, and there is no space inside
a number. -/

namespace VhdlStyle

namespace Leaf

/-- The delimiters that the form of an expression says. -/
def markKinds : List Kind := [.lParen, .rParen, .comma, .arrow, .dot, .tick]

/-- The word of a delimiter, as the table spells it first. -/
def mark (k : Kind) : Leaf :=
  ⟨k, ((Lexeme.delimiters.find? fun entry => entry.2 == k).map fun entry =>
    Bytes.ofString entry.1).getD []⟩

/-- The kinds of numbers that a unit may follow. -/
def quantityKinds : List Kind := [.decimalLit, .basedLit]

/-- The spelling of a word is what its kind says, where that is all a tree knows of it. -/
structure WellSpelled (l : Leaf) : Prop where
  eq_mark : l.kind ∈ markKinds → l = mark l.kind
  space_not_mem : l.kind ∈ quantityKinds → Bytes.space ∉ l.text

theorem WellSpelled.eq_mark_of_kind {l : Leaf} (h : l.WellSpelled) {k : Kind} (hk : l.kind = k)
    (hmark : k ∈ markKinds) : l = mark k := by
  subst hk
  exact h.eq_mark hmark

theorem WellSpelled.of_not_mem {l : Leaf} (hmark : l.kind ∉ markKinds)
    (hnumber : l.kind ∉ quantityKinds) : l.WellSpelled :=
  ⟨fun h => absurd h hmark, fun h => absurd h hnumber⟩

end Leaf

/-! ## Delimiters and numbers of a source -/

namespace Lexeme

/-- A delimiter of an expression is spelled in one way. -/
theorem mark_of_mem_delimiters : ∀ entry ∈ delimiters, entry.2 ∈ Leaf.markKinds →
    Leaf.mark entry.2 = ⟨entry.2, Bytes.ofString entry.1⟩ := by
  decide +kernel

/-- A delimiter takes the bytes of its spelling. -/
theorem take_delimiter {first : UInt8} {rest : Bytes}
    (h : (delimiter first rest).kind ≠ .invalid) :
    ∃ entry ∈ delimiters, (delimiter first rest).kind = entry.2 ∧
      (first :: rest).take ((delimiter first rest).more + 1) = Bytes.ofString entry.1 := by
  rw [delimiter] at h ⊢
  split at h
  · next text kind hfind =>
      have hentry := List.mem_of_find?_eq_some hfind
      obtain ⟨hlength, hpos, -⟩ := delimiter_bytes _ hentry
      have hfront := List.find?_some hfind
      have hprefix : Bytes.ofString text <+: first :: rest :=
        List.isPrefixOf_iff_prefix.mp hfront
      refine ⟨(text, kind), hentry, rfl, ?_⟩
      have hmore : text.length - 1 + 1 = (Bytes.ofString text).length := by
        dsimp only at hlength hpos
        omega
      rw [hmore]
      exact (List.prefix_iff_eq_take.mp hprefix).symm
  · exact absurd rfl h

/-- A based literal that is closed takes the bytes of its digits, its mark and its exponent. -/
theorem fault_of_based {n : Nat} {body : Bytes} (h : (based n body).kind ∈ Leaf.quantityKinds) :
    (based n body).fault = none := by
  revert h
  unfold based
  extract_lets whole fraction upTo
  split
  · split
    · exact fun _ => rfl
    · exact fun h => absurd h (by simp [Leaf.quantityKinds])
  · exact fun h => absurd h (by simp [Leaf.quantityKinds])

/-- A number goes on with digits, points, signs and the like only. -/
theorem number_le_plainRun {text : Bytes} (h : (number text).kind ∈ Leaf.quantityKinds) :
    (number text).more ≤ plainRun text := by
  have hdigits := digits_le_plainRun text
  revert h
  rw [number]
  dsimp only
  split
  · exact fun _ => hdigits
  · next b after hdrop =>
      have hsplit := plainRun_drop hdigits
      rw [hdrop] at hsplit
      split
      · next hmark =>
          have hb : isPlainByte b = true := by
            rw [beq_iff_eq.mp hmark]
            decide
          rw [plainRun_cons hb] at hsplit
          intro h
          have hbased := based_le_plainRun (fault_of_based h)
          omega
      · split
        · next hdot =>
            have hb : isPlainByte b = true := by
              rw [beq_iff_eq.mp (Bool.and_eq_true_iff.mp hdot).1]
              decide
            rw [plainRun_cons hb] at hsplit
            have hafter := digits_le_plainRun after
            have hwhole : digits Bytes.isDigit text + 1 + digits Bytes.isDigit after ≤
                plainRun text := by
              omega
            have hrest := plainRun_drop hwhole
            have hexponent := exponent_le_plainRun
              (text.drop (digits Bytes.isDigit text + 1 + digits Bytes.isDigit after))
            intro _
            dsimp only
            omega
        · have hexponent := exponent_le_plainRun (b :: after)
          split
          · split
            · intro h
              have hbits : ∀ k ∈ [Kind.bitStringLit, .invalid], k ∉ Leaf.quantityKinds := by decide
              exact absurd h (hbits _ (quoted_kind (by decide) (by decide) ..))
            · intro _
              dsimp only
              omega
          · intro _
            dsimp only
            omega

/-- Only the rule for numbers reads numbers. -/
theorem scan_number {previous : Kind} {first : UInt8} {rest : Bytes}
    (h : (scan previous first rest).kind ∈ Leaf.quantityKinds) :
    Bytes.isDigit first = true ∧ scan previous first rest = number rest := by
  have hother : ∀ k ∈ wordKinds ++ [.extIdent, .stringLit, .charLit, .invalid],
      k ∉ Leaf.quantityKinds := by decide
  have hdelimiters : ∀ entry ∈ delimiters, entry.2 ∉ Leaf.quantityKinds := by decide
  revert h
  rw [scan]
  split
  · exact fun h => absurd h (hother _ (List.mem_append_left _ (word_kind first rest)))
  split
  · rw [extended]
    split
    · exact fun h => absurd h (by simp [Leaf.quantityKinds])
    · exact fun h => absurd h (by simp [Leaf.quantityKinds])
  split
  · next hdigit => exact fun _ => ⟨hdigit, rfl⟩
  split
  · refine fun h => absurd h (hother _ (List.mem_append_right _ ?_))
    exact quoted_kind (by decide) (by decide) ..
  split
  · exact fun h => absurd h (by decide)
  · intro h
    rcases delimiter_kind first rest with hinvalid | ⟨entry, hentry, hkind⟩
    · rw [hinvalid] at h
      exact absurd h (by decide)
    · rw [hkind] at h
      exact absurd h (hdelimiters entry hentry)

theorem space_not_plain : isPlainByte Bytes.space = false := by decide +kernel

theorem scan_wellSpelled (previous : Kind) (first : UInt8) (rest : Bytes) :
    Leaf.WellSpelled ⟨(scan previous first rest).kind,
      (first :: rest).take ((scan previous first rest).more + 1)⟩ := by
  constructor
  · intro hmark
    have hdelimiter : ∀ k ∈ Leaf.markKinds, k ∈ delimiterKinds ∧ k ≠ .invalid := by decide
    obtain ⟨hkind, hvalid⟩ := hdelimiter _ hmark
    rcases scan_cases previous first rest with hscan | hother
    · dsimp only at hmark hvalid ⊢
      rw [hscan] at hmark hvalid ⊢
      obtain ⟨entry, hentry, hkind, htake⟩ := take_delimiter hvalid
      rw [hkind] at hmark ⊢
      rw [htake, mark_of_mem_delimiters entry hentry hmark]
    · exact absurd hkind hother
  · intro hnumber
    obtain ⟨hdigit, hscan⟩ := scan_number hnumber
    dsimp only at hnumber ⊢
    rw [hscan] at hnumber ⊢
    rw [List.take_succ_cons]
    have hfirst : isPlainByte first = true := isPlainByte_class first (.inl (by simp [hdigit]))
    have hmore : ∀ b ∈ rest.take (number rest).more, isPlainByte b = true := by
      refine all_of_le_countWhile (r := rest.drop (number rest).more) ?_
      rw [List.take_append_drop]
      exact (List.length_take_le _ _).trans (number_le_plainRun hnumber)
    intro hspace
    rcases List.mem_cons.mp hspace with rfl | hspace
    · rw [space_not_plain] at hfirst
      cases hfirst
    · have hplain := hmore _ hspace
      rw [space_not_plain] at hplain
      cases hplain

end Lexeme

/-- Whatever token is read, in whatever state, is well spelled. -/
theorem Lexer.scanToken_wellSpelled (lx : Lexer) :
    (Expr.leafOf lx.scanToken.1).WellSpelled := by
  rw [scanToken]
  dsimp only
  split
  · exact .of_not_mem (by simp [Expr.leafOf, Leaf.markKinds])
      (by simp [Expr.leafOf, Leaf.quantityKinds])
  · next first rest hrest =>
      dsimp only [Expr.leafOf]
      rw [hrest]
      exact Lexeme.scan_wellSpelled _ first rest

/-- The words of a source are well spelled, whatever is wrong with it. -/
theorem SourceFile.tokens_wellSpelled (f : SourceFile) :
    ∀ t ∈ f.tokens.1, (Expr.leafOf t).WellSpelled :=
  f.forall_tokens Lexer.scanToken_wellSpelled

end VhdlStyle
