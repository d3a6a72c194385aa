import VhdlStyle.Casing
import VhdlStyle.Proofs.Lexing.Munch

/-! # Letter case of ASCII texts

On ASCII characters all mappings of letter case work on their bytes, so the first byte of a text
tells the first byte of the text in any casing. On ASCII texts they work byte by byte, and humps
are parted by single underscores. -/

namespace VhdlStyle

/-! ## ASCII characters -/

/-- The character of an ASCII byte. -/
def Utf8.Glyph.ofByte (b : UInt8) : Utf8.Glyph := ⟨b.toNat, [b], true⟩

theorem Utf8.glyphs_cons {b : UInt8} (hb : b < 0x80) (rest : Bytes) :
    glyphs (b :: rest) = Glyph.ofByte b :: glyphs rest := by
  have hglyph : glyph b rest = Glyph.ofByte b := by simp [glyph, hb, Glyph.ofByte]
  rw [glyphs, glyphsFrom, hglyph]
  rfl

namespace CaseMap

/-- An ASCII character is its byte, before and after a mapping of letter case. -/
theorem ascii_character : ∀ b : UInt8, b < 0x80 → Utf8.encode b.toNat = [b] ∧
    lowerGlyph (.ofByte b) = [Bytes.lowerByte b] ∧ upperGlyph (.ofByte b) = [Bytes.upperByte b] ∧
    (isCased b.toNat = false → Bytes.lowerByte b = b) :=
  Lexeme.byte_induction (by decide +kernel)

/-- Lower case is seen at the first byte. -/
theorem lower_cons {b : UInt8} (hb : b < 0x80) (rest : Bytes) :
    ∃ tail, lower (b :: rest) = Bytes.lowerByte b :: tail := by
  obtain ⟨-, hlower, -, hcaseless⟩ := ascii_character b hb
  rw [lower, Utf8.glyphs_cons hb, lowerText]
  split
  · rw [hlower]
    exact ⟨_, rfl⟩
  · rename_i hcased
    have hcased : isCased b.toNat = false := by simpa [Utf8.Glyph.ofByte] using hcased
    refine ⟨lowerText .between (Utf8.glyphs rest), ?_⟩
    rw [hcaseless hcased]
    rfl

/-- Upper case is seen at the first byte. -/
theorem upper_cons {b : UInt8} (hb : b < 0x80) (rest : Bytes) :
    ∃ tail, upper (b :: rest) = Bytes.upperByte b :: tail := by
  obtain ⟨-, -, hupper, -⟩ := ascii_character b hb
  rw [upper, Utf8.glyphs_cons hb, List.flatMap_cons, hupper]
  exact ⟨_, rfl⟩

end CaseMap

/-- No underscore goes in front of a name. -/
theorem CaseStyle.splitHumps_cons {b : UInt8} (hb : b < 0x80) (rest : Bytes) :
    ∃ tail, splitHumps (b :: rest) = b :: tail := by
  have hfirst : Utf8.encode (Utf8.Glyph.ofByte b).rune = [b] := (CaseMap.ascii_character b hb).1
  rw [splitHumps, Utf8.runes, Utf8.glyphs_cons hb, List.map_cons]
  dsimp only
  rw [Utf8.encodeAll, List.flatMap_cons, hfirst]
  exact ⟨_, rfl⟩

/-! ## ASCII texts -/

/-- All bytes are ASCII. -/
def Bytes.Ascii (text : Bytes) : Prop := ∀ b ∈ text, b < 0x80

theorem Bytes.Ascii.of_cons {b : UInt8} {text : Bytes} (h : Ascii (b :: text)) :
    b < 0x80 ∧ Ascii text :=
  ⟨h b List.mem_cons_self, fun c hc => h c (List.mem_cons_of_mem b hc)⟩

namespace Utf8

theorem glyphs_ascii {text : Bytes} (h : text.Ascii) : glyphs text = text.map Glyph.ofByte := by
  induction text with
  | nil => rfl
  | cons b rest ih =>
      obtain ⟨hb, hrest⟩ := h.of_cons
      rw [glyphs_cons hb, ih hrest, List.map_cons]

/-- The code points of an ASCII text are its bytes. -/
theorem runes_ascii {text : Bytes} (h : text.Ascii) : runes text = text.map UInt8.toNat := by
  rw [runes, glyphs_ascii h, List.map_map]
  rfl

theorem encodeAll_ascii {text : Bytes} (h : text.Ascii) :
    encodeAll (text.map UInt8.toNat) = text := by
  induction text with
  | nil => rfl
  | cons b rest ih =>
      obtain ⟨hb, hrest⟩ := h.of_cons
      have htail := ih hrest
      rw [encodeAll] at htail ⊢
      rw [List.map_cons, List.flatMap_cons, htail, (CaseMap.ascii_character b hb).1]
      rfl

end Utf8

namespace CaseMap

/-- Looking words up and folding see a byte in lower case. -/
theorem ascii_rune : ∀ b : UInt8, b < 0x80 → lowerRune b.toNat = (Bytes.lowerByte b).toNat ∧
    foldRune b.toNat = (Bytes.lowerByte b).toNat ∧ Bytes.lowerByte b < 0x80 ∧
    Bytes.upperByte b < 0x80 :=
  Lexeme.byte_induction (by decide +kernel)

theorem ascii_lower {text : Bytes} (h : text.Ascii) :
    Bytes.Ascii (text.map Bytes.lowerByte) := by
  intro b hb
  obtain ⟨c, hc, rfl⟩ := List.mem_map.mp hb
  exact (ascii_rune c (h c hc)).2.2.1

theorem toLower_ascii {text : Bytes} (h : text.Ascii) :
    toLower text = text.map Bytes.lowerByte := by
  have hrunes : (text.map UInt8.toNat).map lowerRune =
      (text.map Bytes.lowerByte).map UInt8.toNat := by
    rw [List.map_map, List.map_map]
    exact List.map_congr_left fun b hb => (ascii_rune b (h b hb)).1
  rw [toLower, Utf8.runes_ascii h, hrunes, Utf8.encodeAll_ascii (ascii_lower h)]

/-- ASCII texts differ in letter case alone when they are the same in lower case. -/
theorem equalFold_ascii {s t : Bytes} (hs : s.Ascii) (ht : t.Ascii) :
    equalFold s t = true ↔ s.map Bytes.lowerByte = t.map Bytes.lowerByte := by
  have hfold {text : Bytes} (h : text.Ascii) : (Utf8.runes text).map foldRune =
      (text.map Bytes.lowerByte).map UInt8.toNat := by
    rw [Utf8.runes_ascii h, List.map_map, List.map_map]
    exact List.map_congr_left fun b hb => (ascii_rune b (h b hb)).2.1
  rw [equalFold, hfold hs, hfold ht, beq_iff_eq]
  exact List.map_inj_right fun _ _ => UInt8.toNat_inj.mp

theorem upper_ascii {text : Bytes} (h : text.Ascii) : upper text = text.map Bytes.upperByte := by
  rw [upper, Utf8.glyphs_ascii h]
  induction text with
  | nil => rfl
  | cons b rest ih =>
      obtain ⟨hb, hrest⟩ := h.of_cons
      rw [List.map_cons, List.flatMap_cons, (ascii_character b hb).2.2.1, ih hrest]
      rfl

/-- Whether a word has begun does not matter for ASCII characters. -/
theorem lowerText_ascii {text : Bytes} (h : text.Ascii) {state : WordState}
    (hstate : state = .between ∨ state = .inside) :
    lowerText state (text.map .ofByte) = text.map Bytes.lowerByte := by
  induction text generalizing state with
  | nil => rcases hstate with rfl | rfl <;> rfl
  | cons b rest ih =>
      obtain ⟨hb, hrest⟩ := h.of_cons
      obtain ⟨-, hlower, -, hcaseless⟩ := ascii_character b hb
      have hinside := ih hrest (.inr rfl)
      have hbetween := ih hrest (.inl rfl)
      -- what has no case is copied, and is in lower case already
      have hplain (hcased : isCased b.toNat = false) :
          (Utf8.Glyph.ofByte b).bytes = [Bytes.lowerByte b] := by
        rw [hcaseless hcased]
        rfl
      have hsigma : ((Utf8.Glyph.ofByte b).rune != capitalSigma) = true := by
        have hlt : b.toNat < 128 := hb
        have hne : b.toNat ≠ 0x3A3 := by omega
        simpa [Utf8.Glyph.ofByte, capitalSigma] using hne
      rcases hstate with rfl | rfl
      · rw [List.map_cons, List.map_cons, lowerText]
        split
        · rw [hlower, hinside]
          rfl
        · rename_i hcased
          have hcased : isCased b.toNat = false := by simpa [Utf8.Glyph.ofByte] using hcased
          rw [hplain hcased, hbetween]
          rfl
      · rw [List.map_cons, List.map_cons, lowerText]
        · split
          · rename_i hcased
            have hcased : isCased b.toNat = false := by
              have hnot : isCased b.toNat = false ∧ isIgnorable b.toNat = false := by
                simpa [Utf8.Glyph.ofByte] using hcased
              exact hnot.1
            rw [hplain hcased, hbetween]
            rfl
          · rw [hlower, hinside]
            rfl
        · simp
        · simp

theorem lower_ascii {text : Bytes} (h : text.Ascii) : lower text = text.map Bytes.lowerByte := by
  rw [lower, Utf8.glyphs_ascii h]
  exact lowerText_ascii h (.inl rfl)

end CaseMap

namespace CaseStyle

/-- The underscore. -/
def underscore : UInt8 := '_'

/-- Humps are parted by underscores alone. -/
theorem exists_humpsAfter (before : Nat) (text : Bytes) : ∃ humps : Bytes,
    humpsAfter before (text.map UInt8.toNat) = humps.map UInt8.toNat ∧
      humps ⊆ underscore :: text ∧ (humps = text ∨ underscore ∈ humps) := by
  induction text generalizing before with
  | nil => exact ⟨[], rfl, List.nil_subset _, .inl rfl⟩
  | cons b rest ih =>
      obtain ⟨humps, hhumps, hsub, hcut⟩ := ih b.toNat
      have hsub' : humps ⊆ underscore :: b :: rest := fun c hc => by
        rcases List.mem_cons.mp (hsub hc) with rfl | hc
        · exact List.mem_cons_self
        · exact List.mem_cons_of_mem _ (List.mem_cons_of_mem _ hc)
      have hb : b ∈ underscore :: b :: rest := List.mem_cons_of_mem _ List.mem_cons_self
      rw [List.map_cons, humpsAfter]
      split
      · refine ⟨underscore :: b :: humps, by rw [hhumps]; rfl, ?_, .inr List.mem_cons_self⟩
        exact List.cons_subset.mpr ⟨List.mem_cons_self, List.cons_subset.mpr ⟨hb, hsub'⟩⟩
      · refine ⟨b :: humps, by rw [hhumps]; rfl, List.cons_subset.mpr ⟨hb, hsub'⟩, ?_⟩
        exact hcut.imp (congrArg (b :: ·)) (List.mem_cons_of_mem b)

/-- Parting the humps of an ASCII text keeps its first byte and inserts underscores, if anything. -/
theorem exists_splitHumps {b : UInt8} {rest : Bytes} (h : Bytes.Ascii (b :: rest)) :
    ∃ humps : Bytes, splitHumps (b :: rest) = b :: humps ∧ humps ⊆ underscore :: rest ∧
      (humps = rest ∨ underscore ∈ humps) := by
  obtain ⟨hb, hrest⟩ := h.of_cons
  obtain ⟨humps, hhumps, hsub, hcut⟩ := exists_humpsAfter b.toNat rest
  refine ⟨humps, ?_, hsub, hcut⟩
  have hascii : Bytes.Ascii (b :: humps) := by
    intro c hc
    rcases List.mem_cons.mp hc with rfl | hc
    · exact hb
    · rcases List.mem_cons.mp (hsub hc) with rfl | hc
      · decide
      · exact hrest c hc
  rw [splitHumps, Utf8.runes_ascii h, List.map_cons]
  simp only
  rw [hhumps, ← List.map_cons, Utf8.encodeAll_ascii hascii]

end CaseStyle

end VhdlStyle
