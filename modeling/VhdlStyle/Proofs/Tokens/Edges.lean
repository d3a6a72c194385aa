import Mathlib.Data.List.Basic
import VhdlStyle.Proofs.Tokens.Sound

/-! # The bytes of words

Whatever is not between quotes in a word is a letter, a digit or one of a few marks; what is
between quotes stays on one line. Only a character literal may hold any byte. -/

namespace VhdlStyle

namespace Lexeme

/-- A byte of a word or a number that is not between quotes. -/
def isPlainByte (b : UInt8) : Bool :=
  isIdentByte b || b == '.' || b == '#' || b == '+' || b == '-'

/-- The bytes at the front that are not between quotes. -/
abbrev plainRun (text : Bytes) : Nat := countWhile isPlainByte text

theorem plainRun_cons {b : UInt8} (hb : isPlainByte b = true) (rest : Bytes) :
    plainRun (b :: rest) = 1 + plainRun rest := by
  simp [plainRun, countWhile, hb, Nat.add_comm]

theorem plainRun_drop {text : Bytes} {n : Nat} (h : n ≤ plainRun text) :
    plainRun text = n + plainRun (text.drop n) := by
  induction n generalizing text with
  | zero => simp
  | succ n ih =>
      cases text with
      | nil => simp [plainRun, countWhile] at h
      | cons b rest =>
          by_cases hb : isPlainByte b = true
          · rw [plainRun_cons hb] at h ⊢
            have hrest : n ≤ plainRun rest := by omega
            rw [List.drop_succ_cons, ih hrest]
            omega
          · simp [plainRun, countWhile, hb] at h

theorem countWhile_le_plainRun {p : UInt8 → Bool} (hp : ∀ b, p b = true → isPlainByte b = true)
    (text : Bytes) : countWhile p text ≤ plainRun text := by
  induction text with
  | nil => exact Nat.le_refl _
  | cons b rest ih =>
      cases hb : p b with
      | false => simp [countWhile, hb]
      | true =>
          rw [plainRun_cons (hp b hb)]
          simpa [countWhile, hb, Nat.add_comm] using ih

set_option maxRecDepth 10000 in
theorem isPlainByte_class : ∀ b : UInt8, (Bytes.isDigit b || b == '_') = true ∨
    (isBasedDigit b || b == '_') = true ∨ isIdentByte b = true ∨ Bytes.isLetter b = true →
    isPlainByte b = true := byte_induction (by decide)

theorem digits_le_plainRun (text : Bytes) : digits Bytes.isDigit text ≤ plainRun text :=
  countWhile_le_plainRun (fun b hb => isPlainByte_class b (.inl hb)) text

theorem basedDigits_le_plainRun (text : Bytes) : digits isBasedDigit text ≤ plainRun text :=
  countWhile_le_plainRun (fun b hb => isPlainByte_class b (.inr (.inl hb))) text

theorem exponent_le_plainRun (text : Bytes) : exponent text ≤ plainRun text := by
  match text with
  | [] => exact Nat.zero_le _
  | [e] => simp [exponent]
  | e :: b :: rest =>
      rw [exponent_cons]
      split
      · rename_i he
        have hplain : isPlainByte e = true :=
          isPlainByte_class e (.inr (.inr (.inr (isLetter_of_exponent e he))))
        rw [plainRun_cons hplain]
        split
        · have hdigits := digits_le_plainRun (b :: rest)
          omega
        · split
          · rename_i hsign
            have hb : isPlainByte b = true := by
              rw [Bool.and_eq_true, Bool.or_eq_true, beq_iff_eq, beq_iff_eq] at hsign
              rcases hsign.1 with rfl | rfl <;> decide
            have hdigits := digits_le_plainRun rest
            rw [plainRun_cons hb]
            omega
          · omega
      · omega

theorem based_le_plainRun {n : Nat} {text : Bytes} (h : (based n text).fault = none) :
    (based n text).more ≤ n + plainRun text := by
  have hdigits := basedDigits_le_plainRun text
  revert h
  unfold based
  extract_lets whole fraction upTo
  have hwhole : whole ≤ plainRun text := hdigits
  have hupTo : whole + fraction ≤ plainRun text := by
    have hsplit := plainRun_drop hwhole
    cases hdrop : text.drop whole with
    | nil =>
        have hnone : fraction = 0 := by simp only [fraction, hdrop]
        omega
    | cons b rest =>
        have hrest := basedDigits_le_plainRun rest
        rw [hdrop] at hsplit
        have hfraction : fraction = if b == '.' then 1 + digits isBasedDigit rest else 0 := by
          simp only [fraction, hdrop]
        split at hfraction
        · rename_i hdot
          have hb : isPlainByte b = true := by rw [beq_iff_eq.mp hdot]; decide
          rw [plainRun_cons hb] at hsplit
          omega
        · omega
  split
  · rename_i b rest hdrop
    have hsplit := plainRun_drop (n := upTo) hupTo
    rw [hdrop] at hsplit
    split
    · rename_i hmark
      have hb : isPlainByte b = true := by rw [beq_iff_eq.mp hmark]; decide
      have hexponent := exponent_le_plainRun rest
      rw [plainRun_cons hb] at hsplit
      intro _
      dsimp only
      omega
    · simp
  · simp

/-- The text is plain up to a quote, and ends where that is closed. -/
def EndsQuoted (text : Bytes) : Prop :=
  ∃ front body, text = front ++ ('"' : UInt8) :: body ∧ (∀ b ∈ front, isPlainByte b = true) ∧
    Enclosed '"' body

theorem EndsQuoted.cons {b : UInt8} {text : Bytes} (hb : isPlainByte b = true)
    (h : EndsQuoted text) : EndsQuoted (b :: text) := by
  obtain ⟨front, body, rfl, hfront, hbody⟩ := h
  exact ⟨b :: front, body, rfl, List.forall_mem_cons.mpr ⟨hb, hfront⟩, hbody⟩

theorem endsQuoted_of_quoted {kind k : Kind} {code : Code} {what front body : Bytes} {m : Nat}
    (hfront : ∀ b ∈ front, isPlainByte b = true)
    (h : quoted kind code what m body = ⟨k, m + body.length, none⟩) :
    EndsQuoted (front ++ ('"' : UInt8) :: body) ∧ k = kind := by
  unfold quoted at h
  split at h
  · rename_i length hbody
    simp only [Lexeme.mk.injEq] at h
    refine ⟨⟨front, body, rfl, hfront, ?_⟩, h.1.symm⟩
    obtain ⟨t, r, rfl, hlength, ht⟩ := Enclosed.of_quotedBody hbody
    have hr : r = [] := List.eq_nil_of_length_eq_zero (by
      rw [List.length_append] at h
      omega)
    rwa [hr, List.append_nil]
  · simp at h
  · simp at h

theorem endsQuoted_of_bitString {text body : Bytes} {n m : Nat} {k : Kind}
    (hdrop : text.drop n = ('"' : UInt8) :: body) (hrun : n ≤ plainRun text)
    (h : bitString m body = ⟨k, m + body.length, none⟩) :
    EndsQuoted text ∧ k = .bitStringLit := by
  have hsplit := List.take_append_drop n text
  rw [hdrop] at hsplit
  rw [← hsplit]
  refine endsQuoted_of_quoted (all_of_le_countWhile (r := text.drop n) ?_) h
  rw [List.take_append_drop]
  exact (List.length_take_le n text).trans hrun

/-- A number is plain unless it is a bit string. -/
theorem number_shape {text : Bytes} {k : Kind} (h : number text = ⟨k, text.length, none⟩) :
    (∀ b ∈ text, isPlainByte b = true) ∨ EndsQuoted text ∧ k = .bitStringLit := by
  have hplain (hle : text.length ≤ plainRun text) : ∀ b ∈ text, isPlainByte b = true := by
    have hall := all_of_le_countWhile (p := isPlainByte) (t := text) (r := [])
    rw [List.append_nil] at hall
    exact hall hle
  have hdigits := digits_le_plainRun text
  unfold number at h
  dsimp only at h
  split at h
  · simp only [Lexeme.mk.injEq] at h
    exact .inl (hplain (by omega))
  · rename_i b after hdrop
    have hsplit := plainRun_drop hdigits
    rw [hdrop] at hsplit
    split at h
    · rename_i hmark
      have hb : isPlainByte b = true := by rw [beq_iff_eq.mp hmark]; decide
      have hbased := based_le_plainRun (congrArg Lexeme.fault h)
      have hmore : (based _ after).more = text.length := congrArg Lexeme.more h
      rw [plainRun_cons hb] at hsplit
      exact .inl (hplain (by omega))
    · split at h
      · rename_i hdot
        have hb : isPlainByte b = true := by
          rw [beq_iff_eq.mp (Bool.and_eq_true_iff.mp hdot).1]
          decide
        have hafter := digits_le_plainRun after
        rw [plainRun_cons hb] at hsplit
        have hwhole : digits Bytes.isDigit text + 1 + digits Bytes.isDigit after ≤
            plainRun text := by omega
        have hrest := plainRun_drop hwhole
        have hexponent := exponent_le_plainRun
          (text.drop (digits Bytes.isDigit text + 1 + digits Bytes.isDigit after))
        simp only [Lexeme.mk.injEq] at h
        exact .inl (hplain (by omega))
      · have hexponent := exponent_le_plainRun (b :: after)
        split at h
        · rename_i q body hletters
          split at h
          · rename_i hquote
            have hq : q = ('"' : UInt8) := by
              rw [Bool.and_eq_true, beq_iff_eq] at hquote
              exact hquote.1
            have hrun : countWhile Bytes.isLetter (b :: after) ≤ plainRun (b :: after) :=
              countWhile_le_plainRun (fun c hc => isPlainByte_class c (.inr (.inr (.inr hc)))) _
            have hdrop' : text.drop (digits Bytes.isDigit text +
                countWhile Bytes.isLetter (b :: after)) = ('"' : UInt8) :: body := by
              rw [← List.drop_drop, hdrop, hletters, hq]
            rw [← length_of_drop hdrop'] at h
            exact .inr (endsQuoted_of_bitString hdrop' (by omega) h)
          · simp only [Lexeme.mk.injEq] at h
            exact .inl (hplain (by omega))
        · simp only [Lexeme.mk.injEq] at h
          exact .inl (hplain (by omega))

/-- An identifier or a reserved word is plain. -/
theorem word_shape {first : UInt8} {rest : Bytes} {k : Kind} (hfirst : Bytes.isLetter first = true)
    (h : word first rest = ⟨k, rest.length, none⟩) :
    (∀ b ∈ first :: rest, isPlainByte b = true) ∨
      EndsQuoted (first :: rest) ∧ k = .bitStringLit := by
  have hb : isPlainByte first = true := isPlainByte_class first (.inr (.inr (.inr hfirst)))
  have hrun : countWhile isIdentByte rest ≤ plainRun rest :=
    countWhile_le_plainRun (fun c hc => isPlainByte_class c (.inr (.inr (.inl hc)))) rest
  have hplain (hle : rest.length ≤ plainRun rest) : ∀ b ∈ rest, isPlainByte b = true := by
    have hall := all_of_le_countWhile (p := isPlainByte) (t := rest) (r := [])
    rw [List.append_nil] at hall
    exact hall hle
  unfold word at h
  dsimp only at h
  split at h
  · rename_i b body hdrop
    split at h
    · rename_i hquote
      have hq : b = ('"' : UInt8) := by
        rw [Bool.and_eq_true, beq_iff_eq] at hquote
        exact hquote.1
      rw [hq] at hdrop
      rw [← length_of_drop hdrop] at h
      refine .inr (endsQuoted_of_bitString (n := countWhile isIdentByte rest + 1) hdrop ?_ h)
      rw [plainRun_cons hb]
      omega
    · simp only [Lexeme.mk.injEq] at h
      exact .inl (List.forall_mem_cons.mpr ⟨hb, hplain (by omega)⟩)
  · simp only [Lexeme.mk.injEq] at h
    exact .inl (List.forall_mem_cons.mpr ⟨hb, hplain (by omega)⟩)

end Lexeme

namespace Leaf

open Lexeme

variable {l : Leaf}

/-- A word that is no delimiter is plain, or quoted at its end, or an extended identifier, or a
character literal. -/
theorem Sound.shape (h : l.Sound) (hk : l.kind ∉ delimiterKinds) :
    (∀ b ∈ l.text, isPlainByte b = true) ∨
      (EndsQuoted l.text ∧ l.kind ∈ [.bitStringLit, .stringLit]) ∨
      (∃ body, l.text = ('\\' : UInt8) :: body ∧ Enclosed '\\' body ∧ l.kind = .extIdent) ∨
      ∃ b, l.text = [('\'' : UInt8), b, ('\'' : UInt8)] ∧ l.kind = .charLit := by
  obtain ⟨b, rest, htext, -, hscan⟩ := h.exists_cons
  rw [htext]
  unfold scan at hscan
  split at hscan
  · rename_i hb
    exact (word_shape hb hscan).imp_right fun h => .inl ⟨h.1, by simp [h.2]⟩
  split at hscan
  · rename_i hb
    unfold extended at hscan
    split at hscan
    · rename_i n hbody
      simp only [Lexeme.mk.injEq] at hscan
      obtain ⟨t, r, rfl, hlength, ht⟩ := Enclosed.of_extendedBody hbody
      have hr : r = [] := List.eq_nil_of_length_eq_zero (by
        rw [List.length_append] at hscan
        omega)
      rw [hr, List.append_nil, beq_iff_eq.mp hb]
      exact .inr (.inr (.inl ⟨t, rfl, ht, hscan.1.symm⟩))
    · simp at hscan
  split at hscan
  · rename_i hb
    have hplain : isPlainByte b = true := isPlainByte_class b (.inl (by simp [hb]))
    rcases number_shape hscan with hall | ⟨hquoted, hkind⟩
    · exact .inl (List.forall_mem_cons.mpr ⟨hplain, hall⟩)
    · exact .inr (.inl ⟨hquoted.cons hplain, by simp [hkind]⟩)
  split at hscan
  · rename_i hb
    rw [beq_iff_eq.mp hb]
    rw [← Nat.zero_add rest.length] at hscan
    obtain ⟨hquoted, hkind⟩ := endsQuoted_of_quoted (List.forall_mem_nil _) hscan
    exact .inr (.inl ⟨hquoted, by simp [hkind]⟩)
  split at hscan
  · rename_i hopens
    rw [Bool.and_eq_true, beq_iff_eq] at hopens
    have hcloses := opensCharacter_closes hopens.2
    have hlength : 2 = rest.length := congrArg Lexeme.more hscan
    obtain ⟨c, d, rfl⟩ := List.length_eq_two.mp hlength.symm
    obtain rfl : d = ('\'' : UInt8) := by simpa using hcloses
    exact .inr (.inr (.inr ⟨c, by rw [hopens.1], (congrArg Lexeme.kind hscan).symm⟩))
  · unfold Lexeme.delimiter at hscan
    split at hscan
    · rename_i hfind
      have hmem := List.mem_map_of_mem (f := Prod.snd) (List.mem_of_find?_eq_some hfind)
      obtain rfl := congrArg Lexeme.kind hscan
      exact absurd hmem hk
    · simp at hscan

end Leaf

end VhdlStyle
