import VhdlStyle.Proofs.Text.AsciiTexts

/-! # Lower case of all texts

Characters that are not ASCII stay apart from those that are: none of their bytes is ASCII, and in
lower case only two of them become ASCII letters. A text that is a given ASCII word in lower case
is therefore ASCII itself, unless one of those letters is in the word. -/

namespace VhdlStyle

namespace Utf8

/-- The second byte rules out the short code points of longer sequences. -/
theorem le_of_isSecond {first second : UInt8} (h : isSecond first second = true) :
    (first.toNat = 0xE0 → 0xA0 ≤ second.toNat) ∧
      (first.toNat = 0xF0 → 0x90 ≤ second.toNat) ∧ second.toNat < 0xC0 := by
  unfold isSecond isContinuation at h
  simp only [← UInt8.toNat_inj, beq_iff_eq, UInt8.le_iff_toNat_le, UInt8.lt_iff_toNat_lt] at h
  simp at h
  grind

/-- A byte that is not ASCII begins a character that is not ASCII either. -/
theorem le_rune {b : UInt8} (hb : ¬b < 0x80) (rest : Bytes) : 0x80 ≤ (glyph b rest).rune := by
  have hreplacement : 0x80 ≤ replacement := by decide
  unfold glyph payload
  simp only [UInt8.lt_iff_toNat_lt] at hb ⊢
  simp at hb ⊢
  rw [if_neg (by omega)]
  split
  · exact hreplacement
  split
  · split
    · split
      · dsimp only
        omega
      · exact hreplacement
    · exact hreplacement
  split
  · split
    · split
      · rename_i h
        have hsecond := le_of_isSecond h.1
        dsimp only
        omega
      · exact hreplacement
    · exact hreplacement
  split
  · split
    · split
      · rename_i h
        have hsecond := le_of_isSecond h.1.1
        dsimp only
        omega
      · exact hreplacement
    · exact hreplacement
  · exact hreplacement

/-- No byte of another character is ASCII. -/
theorem le_of_mem_encode {r : Nat} (h : 0x80 ≤ r) {b : UInt8} (hb : b ∈ encode r) :
    ¬b < 0x80 := by
  have hbyte {n : Nat} (hlow : 0x80 ≤ n) (hhigh : n < 256) : ¬UInt8.ofNat n < 0x80 := by
    rw [UInt8.lt_iff_toNat_lt, UInt8.toNat_ofNat_of_lt' hhigh]
    simpa using hlow
  -- the code point that is spelt
  obtain ⟨spelt, hspelt, hle, hlast⟩ : ∃ spelt,
      (if (0xD800 ≤ r && r < 0xE000) || 0x10FFFF < r then replacement else r) = spelt ∧
        0x80 ≤ spelt ∧ spelt ≤ 0x10FFFF := by
    refine ⟨_, rfl, ?_⟩
    split
    · decide
    · rename_i hr
      simp only [Bool.or_eq_true, Bool.and_eq_true, decide_eq_true_eq] at hr
      omega
  unfold encode at hb
  rw [hspelt] at hb
  dsimp only at hb
  rw [if_neg (by omega)] at hb
  split at hb
  · simp only [List.mem_cons, List.not_mem_nil, or_false] at hb
    rcases hb with rfl | rfl <;> exact hbyte (by omega) (by omega)
  split at hb
  · simp only [List.mem_cons, List.not_mem_nil, or_false] at hb
    rcases hb with rfl | rfl | rfl <;> exact hbyte (by omega) (by omega)
  · simp only [List.mem_cons, List.not_mem_nil, or_false] at hb
    rcases hb with rfl | rfl | rfl | rfl <;> exact hbyte (by omega) (by omega)

theorem encode_ne_nil (r : Nat) : encode r ≠ [] := by
  unfold encode
  grind

end Utf8

namespace CaseMap

/-- The letters that are the lower case of other characters than themselves and their capitals. -/
def strayLetters : Bytes := "ik"

/-- The lower case of another character is no ASCII character, but for two letters. -/
theorem lowerRune_of_le {r : Nat} (h : 0x80 ≤ r) :
    0x80 ≤ lowerRune r ∨ ∃ b ∈ strayLetters, lowerRune r = b.toNat := by
  have hrows : ∀ row ∈ CaseTables.lowerRows, 0x80 ≤ row.2.2.2 ∨
      row.1 = row.2.1 ∧ ∃ b ∈ strayLetters, row.2.2.2 = b.toNat := by decide +kernel
  rw [lowerRune, if_neg (by omega), mapRows]
  split
  · rename_i low high step target hfind
    have hin : (low ≤ r ∧ r ≤ high) ∧ (r - low) % step = 0 := by
      simpa using List.find?_some hfind
    rcases hrows _ (List.mem_of_find?_eq_some hfind) with hle | ⟨hsingle, b, hb, htarget⟩
    · exact .inl (Nat.le_add_right_of_le hle)
    · refine .inr ⟨b, hb, ?_⟩
      rw [← htarget]
      dsimp only at hsingle ⊢
      omega
  · exact .inl h

/-- A text that is not ASCII shows it in lower case. -/
theorem exists_mem_toLower {text : Bytes} (h : ¬text.Ascii) :
    ∃ b ∈ toLower text, ¬b < 0x80 ∨ b ∈ strayLetters := by
  induction text with
  | nil => exact absurd (fun b hb => absurd hb List.not_mem_nil) h
  | cons first rest ih =>
      by_cases hfirst : first < 0x80
      · have hrest : ¬Bytes.Ascii rest := fun hrest => h (List.forall_mem_cons.mpr ⟨hfirst, hrest⟩)
        obtain ⟨b, hb, hother⟩ := ih hrest
        refine ⟨b, ?_, hother⟩
        rw [toLower, Utf8.runes, Utf8.encodeAll] at hb
        rw [toLower, Utf8.runes, Utf8.encodeAll, Utf8.glyphs_cons hfirst, List.map_cons,
          List.map_cons, List.flatMap_cons]
        exact List.mem_append_right _ hb
      · have hrune := Utf8.le_rune hfirst rest
        have hpart : ∀ b ∈ Utf8.encode (lowerRune (Utf8.glyph first rest).rune),
            b ∈ toLower (first :: rest) := fun b hb => List.mem_append_left _ hb
        rcases lowerRune_of_le hrune with hle | ⟨b, hb, hlower⟩
        · obtain ⟨b, hb⟩ := List.exists_mem_of_ne_nil _
            (Utf8.encode_ne_nil (lowerRune (Utf8.glyph first rest).rune))
          exact ⟨b, hpart b hb, .inl (Utf8.le_of_mem_encode hle hb)⟩
        · have hascii : ∀ b ∈ strayLetters, b < 0x80 := by decide +kernel
          refine ⟨b, hpart b ?_, .inr hb⟩
          rw [hlower, (ascii_character b (hascii b hb)).1]
          exact List.mem_cons_self

/-- To an ASCII word without those letters only ASCII texts are the same in lower case. -/
theorem toLower_eq_iff {text word : Bytes} (hword : ∀ b ∈ word, b < 0x80 ∧ b ∉ strayLetters) :
    toLower text = word ↔ text.map Bytes.lowerByte = word := by
  have hbyte : ∀ b : UInt8, Bytes.lowerByte b < 0x80 → b < 0x80 :=
    Lexeme.byte_induction (by decide +kernel)
  constructor
  · intro h
    have hascii : text.Ascii := by
      by_contra hnot
      obtain ⟨b, hb, hother⟩ := exists_mem_toLower hnot
      rw [h] at hb
      exact hother.elim (· (hword b hb).1) (hword b hb).2
    rw [← toLower_ascii hascii, h]
  · intro h
    have hascii : text.Ascii := by
      intro b hb
      have hmem : Bytes.lowerByte b ∈ word := h ▸ List.mem_map_of_mem hb
      exact hbyte b (hword _ hmem).1
    rw [toLower_ascii hascii, h]

end CaseMap

end VhdlStyle
