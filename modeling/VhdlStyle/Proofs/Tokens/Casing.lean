import VhdlStyle.Proofs.Comments.Scanned
import VhdlStyle.Proofs.Text.AsciiTexts
import VhdlStyle.Proofs.Tokens.Sound

/-! # Casing and what words denote

Reserved words and basic identifiers are letters, digits and underscores, and letter case does not
matter for what they denote. Casing changes letter case alone, but for the underscores that
`snake_case` puts at the humps of a spelling: these part names, and a reserved word with a hump
turns into a name. -/

namespace VhdlStyle

/-! ## Words -/

namespace Bytes

/-- A letter, and then letters, digits and underscores. -/
def IsWord : Bytes → Prop
  | [] => False
  | b :: rest => isLetter b = true ∧ ∀ c ∈ rest, Lexeme.isIdentByte c = true

instance decidableIsWord : (w : Bytes) → Decidable w.IsWord
  | [] => inferInstanceAs (Decidable False)
  | b :: rest =>
      inferInstanceAs (Decidable (isLetter b = true ∧ ∀ c ∈ rest, Lexeme.isIdentByte c = true))

/-- A source of nothing but the text is one token of the kind, and nothing is wrong with it. -/
def ReadsAs (text : Bytes) (k : Kind) : Prop :=
  ∀ f : SourceFile, f.content = text → f.words = [⟨k, text⟩] ∧ f.tokens.2 = []

set_option maxRecDepth 10000 in
theorem identByte : ∀ b : UInt8, Lexeme.isIdentByte b = true → b < 0x80 ∧ b ≠ '"' ∧
    Lexeme.isIdentByte (lowerByte b) = true ∧ Lexeme.isIdentByte (upperByte b) = true ∧
    lowerByte (lowerByte b) = lowerByte b ∧ lowerByte (upperByte b) = lowerByte b :=
  Lexeme.byte_induction (by decide)

set_option maxRecDepth 10000 in
theorem letterByte : ∀ b : UInt8, isLetter b = true → Lexeme.isIdentByte b = true ∧
    isLetter (lowerByte b) = true ∧ isLetter (upperByte b) = true ∧
    TriviaPiece.isBlank b = false ∧ b ≠ lf ∧ b ≠ '-' ∧ b ≠ '/' :=
  Lexeme.byte_induction (by decide)

set_option maxRecDepth 10000 in
theorem letter_not_verbatim : ∀ b : UInt8, isLetter b = true →
    (b == '\\' || b == '"' || b == '\'' || isDigit b) = false :=
  Lexeme.byte_induction (by decide)

theorem IsWord.identBytes {w : Bytes} (h : w.IsWord) : ∀ b ∈ w, Lexeme.isIdentByte b = true := by
  cases w with
  | nil => exact h.elim
  | cons b rest => exact List.forall_mem_cons.mpr ⟨(letterByte b h.1).1, h.2⟩

theorem IsWord.ascii {w : Bytes} (h : w.IsWord) : w.Ascii :=
  fun b hb => (identByte b (h.identBytes b hb)).1

theorem IsWord.lower {w : Bytes} (h : w.IsWord) : IsWord (w.map lowerByte) := by
  cases w with
  | nil => exact h.elim
  | cons b rest =>
      exact ⟨(letterByte b h.1).2.1,
        List.forall_mem_map.mpr fun c hc => (identByte c (h.2 c hc)).2.2.1⟩

theorem IsWord.upper {w : Bytes} (h : w.IsWord) : IsWord (w.map upperByte) := by
  cases w with
  | nil => exact h.elim
  | cons b rest =>
      exact ⟨(letterByte b h.1).2.2.1,
        List.forall_mem_map.mpr fun c hc => (identByte c (h.2 c hc)).2.2.2.1⟩

end Bytes

namespace Kind

/-- What a word is read as: a reserved word if it is one, else an identifier. -/
def ofWord (w : Bytes) : Kind := (ofKeyword? w).getD .ident

/-- Letter case does not matter. -/
theorem ofWord_congr {v w : Bytes} (hv : v.IsWord) (hw : w.IsWord)
    (h : v.map Bytes.lowerByte = w.map Bytes.lowerByte) : ofWord v = ofWord w := by
  rw [ofWord, ofWord, ofKeyword?, ofKeyword?, CaseMap.toLower_ascii hv.ascii,
    CaseMap.toLower_ascii hw.ascii, h]

/-- No reserved word has an underscore. -/
theorem ofWord_underscore {w : Bytes} (hw : w.IsWord) (h : CaseStyle.underscore ∈ w) :
    ofWord w = .ident := by
  have hkeywords : ∀ k ∈ keywords, CaseStyle.underscore ∉ k.keywordText := by decide
  have hlower : CaseStyle.underscore ∈ w.map Bytes.lowerByte :=
    List.mem_map.mpr ⟨CaseStyle.underscore, h, by decide⟩
  have hnone : ofKeyword? w = none := by
    rw [ofKeyword?, CaseMap.toLower_ascii hw.ascii]
    refine List.find?_eq_none.mpr fun k hk heq => hkeywords k hk ?_
    rw [eq_of_beq heq]
    exact hlower
  rw [ofWord, hnone, Option.getD_none]

end Kind

/-- A word alone is read as one token. -/
theorem Bytes.IsWord.readsAs {w : Bytes} (h : w.IsWord) : w.ReadsAs (Kind.ofWord w) := by
  cases w with
  | nil => exact h.elim
  | cons b rest =>
      obtain ⟨-, -, -, hblank, hlf, hdash, hslash⟩ := letterByte b h.1
      have hplain : TriviaPiece.scan? b (rest ++ []) = none :=
        TriviaPiece.scan?_eq_none.mpr ⟨hblank, hlf, fun heq => absurd heq hdash,
          fun heq => absurd heq hslash⟩
      have hcount : Lexeme.countWhile Lexeme.isIdentByte rest = rest.length := by
        rw [Lexeme.countWhile, List.takeWhile_eq_self_iff.mpr h.2]
      have hscan : Lexeme.scan .invalid b (rest ++ []) =
          ⟨Kind.ofWord (b :: rest), rest.length, none⟩ := by
        simp [Lexeme.scan, h.1, Lexeme.word, hcount, Kind.ofWord]
      intro f hf
      refine SourceFile.words_of_lexed ?_
      rw [hf]
      simpa using Lexed.word hplain hscan (.done (Kind.ofWord (b :: rest)))

/-! ## Words of a source -/

/-- The kinds of reserved words and basic identifiers. -/
def Kind.IsWordKind (k : Kind) : Prop := k = .ident ∨ k.isKeyword = true

instance Kind.decidableIsWordKind (k : Kind) : Decidable k.IsWordKind :=
  inferInstanceAs (Decidable (k = .ident ∨ k.isKeyword = true))

namespace Lexeme

theorem word_text {first : UInt8} (rest : Bytes) (hfirst : Bytes.isLetter first = true)
    (hkind : (word first rest).kind.IsWordKind) :
    Bytes.IsWord (first :: rest.take (word first rest).more) ∧
      Kind.ofWord (first :: rest.take (word first rest).more) = (word first rest).kind := by
  have htext : Bytes.IsWord (first :: rest.take (countWhile isIdentByte rest)) := by
    refine ⟨hfirst, fun c hc => ?_⟩
    rw [countWhile, ← List.prefix_iff_eq_take.mp (List.takeWhile_prefix _)] at hc
    exact List.mem_takeWhile_imp hc
  have hbits (n : Nat) (body : Bytes) : ¬(bitString n body).kind.IsWordKind := by
    have hkinds : ∀ k ∈ [Kind.bitStringLit, .invalid], ¬k.IsWordKind := by decide
    exact hkinds _ (quoted_kind (by decide) (by decide) ..)
  unfold word at hkind ⊢
  dsimp only at hkind ⊢
  split at hkind
  · split at hkind
    · exact absurd hkind (hbits _ _)
    · rename_i hbase
      rw [if_neg hbase]
      exact ⟨htext, rfl⟩
  · exact ⟨htext, rfl⟩

/-- Only a letter starts a reserved word or a basic identifier. -/
theorem scan_text {previous : Kind} {first : UInt8} {rest : Bytes}
    (hkind : (scan previous first rest).kind.IsWordKind) :
    Bytes.IsWord (first :: rest.take (scan previous first rest).more) ∧
      Kind.ofWord (first :: rest.take (scan previous first rest).more) =
        (scan previous first rest).kind := by
  have hothers : ∀ k ∈ numberKinds ++ [.extIdent, .stringLit, .charLit, .invalid] ++
      delimiterKinds, ¬k.IsWordKind := by decide
  by_cases hfirst : Bytes.isLetter first = true
  · rw [scan, if_pos hfirst] at hkind ⊢
    exact word_text rest hfirst hkind
  · refine absurd hkind (hothers _ ?_)
    rw [scan, if_neg hfirst]
    split
    · unfold extended
      split <;> simp
    · split
      · simp [number_kinds]
      · split
        · have hstring : (quoted .stringLit .unterminatedString "string literal" 0 rest).kind ∈
              [Kind.extIdent, .stringLit, .charLit, .invalid] :=
            quoted_kind (by decide) (by decide) ..
          exact List.mem_append_left _ (List.mem_append_right _ hstring)
        · split
          · simp
          · rcases delimiter_kind first rest with hinvalid | ⟨entry, hentry, heq⟩
            · simp [hinvalid]
            · rw [heq]
              exact List.mem_append_right _ (List.mem_map_of_mem hentry)

end Lexeme

/-- The text of a reserved word or a basic identifier is a word that is read as its kind. -/
theorem SourceFile.isWord_of_token (f : SourceFile) : ∀ t ∈ f.tokens.1, t.kind.IsWordKind →
    t.text.IsWord ∧ Kind.ofWord t.text = t.kind := by
  refine f.forall_tokens fun lx => ?_
  unfold Lexer.scanToken
  dsimp only
  split
  · have heof : ¬Kind.IsWordKind .eof := by decide
    exact fun hkind => absurd hkind heof
  · rename_i first rest hrest
    rw [hrest, List.take_succ_cons]
    exact Lexeme.scan_text

/-! ## Casing of words -/

namespace CaseStyle

/-- The spelling that the style re-cases: `snake_case` parts the humps. -/
def spelling (style : CaseStyle) (w : Bytes) : Bytes :=
  if style = .snake then splitHumps w else w

/-- Parting humps leaves a word, and if it changes anything there is an underscore. -/
theorem spelling_word (style : CaseStyle) {w : Bytes} (h : w.IsWord) :
    (style.spelling w).IsWord ∧
      (style.spelling w = w ∨ underscore ∈ style.spelling w) := by
  rw [spelling]
  split
  case isFalse => exact ⟨h, .inl rfl⟩
  case isTrue =>
    cases w with
    | nil => exact h.elim
    | cons b rest =>
        obtain ⟨humps, hhumps, hsub, hcut⟩ := exists_splitHumps h.ascii
        rw [hhumps]
        refine ⟨⟨h.1, fun c hc => ?_⟩, ?_⟩
        · rcases List.mem_cons.mp (hsub hc) with rfl | hc
          · decide
          · exact h.2 c hc
        · exact hcut.imp (congrArg (b :: ·)) (List.mem_cons_of_mem b)

theorem isVerbatim_word {w : Bytes} (h : w.IsWord) : isVerbatim w = false := by
  have hquote : ('"' : Char).toUInt8 ∉ w := by
    intro hmem
    exact (Bytes.identByte _ (h.identBytes _ hmem)).2.1 rfl
  cases w with
  | nil => exact h.elim
  | cons b rest =>
      have hcontains : List.contains (b :: rest) ('"' : Char).toUInt8 = false := by
        simpa using hquote
      rw [isVerbatim, Bytes.letter_not_verbatim b h.1, Bool.false_or]
      exact hcontains

/-- Casing makes a word that differs from the spelling in letter case alone. -/
theorem apply_word (style : CaseStyle) {w : Bytes} (h : w.IsWord) : (style.apply w).IsWord ∧
    (style.apply w).map Bytes.lowerByte = (style.spelling w).map Bytes.lowerByte := by
  have hlower {v : Bytes} (hv : v.IsWord) :
      (v.map Bytes.lowerByte).map Bytes.lowerByte = v.map Bytes.lowerByte := by
    rw [List.map_map]
    exact List.map_congr_left fun b hb => (Bytes.identByte b (hv.identBytes b hb)).2.2.2.2.1
  rw [apply.eq_def, isVerbatim_word h, if_neg Bool.false_ne_true]
  cases style with
  | lower =>
      dsimp only
      rw [CaseMap.lower_ascii h.ascii]
      exact ⟨h.lower, hlower h⟩
  | upper =>
      dsimp only
      rw [CaseMap.upper_ascii h.ascii]
      refine ⟨h.upper, ?_⟩
      rw [List.map_map]
      exact List.map_congr_left fun b hb => (Bytes.identByte b (h.identBytes b hb)).2.2.2.2.2
  | preserve => exact ⟨h, rfl⟩
  | snake =>
      have hsnake : (splitHumps w).IsWord := (spelling_word .snake h).1
      dsimp only
      rw [CaseMap.lower_ascii hsnake.ascii]
      exact ⟨hsnake.lower, hlower hsnake⟩

/-- A word is read as before, if its humps are not parted. -/
theorem readsAs_apply {style : CaseStyle} {w : Bytes} (h : w.IsWord)
    (hsame : style.spelling w = w) : (style.apply w).ReadsAs (Kind.ofWord w) := by
  obtain ⟨hword, hcase⟩ := style.apply_word h
  rw [hsame] at hcase
  rw [← Kind.ofWord_congr hword h hcase]
  exact hword.readsAs

/-- An identifier stays an identifier. -/
theorem readsAs_ident (style : CaseStyle) {w : Bytes} (h : w.IsWord)
    (hident : Kind.ofWord w = .ident) : (style.apply w).ReadsAs .ident := by
  obtain ⟨hspelling, hsame | hcut⟩ := style.spelling_word h
  · rw [← hident]
    exact readsAs_apply h hsame
  · obtain ⟨hword, hcase⟩ := style.apply_word h
    rw [← Kind.ofWord_underscore hspelling hcut, ← Kind.ofWord_congr hword hspelling hcase]
    exact hword.readsAs

end CaseStyle

namespace Casing

/-- The spelling of a name that is re-cased when it is printed. -/
def spelling (c : Casing) (w : Bytes) : Bytes :=
  (if c.isConstant w then c.constants else c.identifiers).spelling w

theorem name_eq (c : Casing) (w : Bytes) :
    c.name w = (if c.isConstant w then c.constants else c.identifiers).apply w := by
  rw [name]
  split <;> rfl

/-- Names are the same, letter case apart, exactly when the spellings that are re-cased are. -/
theorem equalFold_name (c : Casing) {v w : Bytes} (hv : v.IsWord) (hw : w.IsWord) :
    CaseMap.equalFold (c.name v) (c.name w) = true ↔
      CaseMap.equalFold (c.spelling v) (c.spelling w) = true := by
  obtain ⟨hvword, hvcase⟩ :=
    (if c.isConstant v then c.constants else c.identifiers).apply_word hv
  obtain ⟨hwword, hwcase⟩ :=
    (if c.isConstant w then c.constants else c.identifiers).apply_word hw
  rw [name_eq, name_eq, CaseMap.equalFold_ascii hvword.ascii hwword.ascii, hvcase, hwcase,
    spelling, spelling, CaseMap.equalFold_ascii]
  · exact (CaseStyle.spelling_word _ hv).1.ascii
  · exact (CaseStyle.spelling_word _ hw).1.ascii

end Casing

/-- Whatever the styles and the constants: a reserved word of a source stays that word in its
casing, unless `snake_case` finds a hump in its spelling; an identifier stays an identifier in any
style; and two identifiers are printed the same, letter case apart, exactly when the spellings that
are re-cased are the same, letter case apart. Without humps under `snake_case` these are the
identifiers themselves. -/
theorem casing_keeps_words (c : Casing) (f g : SourceFile) (t u : Token) (ht : t ∈ f.tokens.1)
    (hu : u ∈ g.tokens.1) :
    (t.kind.isKeyword = true → c.keywords.spelling t.text = t.text →
      (c.keyword t.text).ReadsAs t.kind) ∧
    (t.kind = .ident → ∀ style : CaseStyle, (style.apply t.text).ReadsAs .ident) ∧
    (t.kind = .ident → u.kind = .ident →
      (CaseMap.equalFold (c.spelling t.text) (c.spelling u.text) = true ↔
        CaseMap.equalFold (c.name t.text) (c.name u.text) = true)) ∧
    (t.kind = .ident → u.kind = .ident →
      c.spelling t.text = t.text → c.spelling u.text = u.text →
      (CaseMap.equalFold t.text u.text = true ↔
        CaseMap.equalFold (c.name t.text) (c.name u.text) = true)) := by
  have hnames (htkind : t.kind = .ident) (hukind : u.kind = .ident) :=
    c.equalFold_name (f.isWord_of_token t ht (.inl htkind)).1
      (g.isWord_of_token u hu (.inl hukind)).1
  refine ⟨?_, ?_, ?_, ?_⟩
  · intro hkind hsame
    obtain ⟨hword, hof⟩ := f.isWord_of_token t ht (.inr hkind)
    rw [← hof]
    exact CaseStyle.readsAs_apply hword hsame
  · intro hkind style
    obtain ⟨hword, hof⟩ := f.isWord_of_token t ht (.inl hkind)
    exact style.readsAs_ident hword (hof.trans hkind)
  · intro htkind hukind
    exact (hnames htkind hukind).symm
  · intro htkind hukind htsame husame
    have h := hnames htkind hukind
    rw [htsame, husame] at h
    exact h.symm

set_option maxRecDepth 10000 in
/-- The reserved word of an entity, its name as a constant and as the label of its end. -/
theorem casing_keeps_words_of_entity :
    let f := SourceFile.ofBytes "a.vhd" "enTity DataIn is end DATAIN;"
    let c := ({ keywords := .upper, constants := .lower, identifiers := .snake } :
      Casing).addConstant "Datain"
    f.words.length = 6 ∧ Bytes.ReadsAs "ENTITY" .kwEntity ∧ Bytes.ReadsAs "data_in" .ident ∧
      CaseMap.equalFold (c.name "DataIn") (c.name "DATAIN") = true := by
  intro f c
  have hwords : f.words.length = 6 ∧
      (∃ t ∈ f.tokens.1, t.kind = .kwEntity ∧ t.text = "enTity") ∧
      (∃ t ∈ f.tokens.1, t.kind = .ident ∧ t.text = "DataIn") ∧
      ∃ t ∈ f.tokens.1, t.kind = .ident ∧ t.text = "DATAIN" := by decide
  have hcased : c.keyword "enTity" = "ENTITY" ∧ c.keywords.spelling "enTity" = "enTity" ∧
      CaseStyle.snake.apply "DataIn" = "data_in" ∧
      CaseMap.equalFold (c.spelling "DataIn") (c.spelling "DATAIN") = true := by decide
  obtain ⟨hlength, ⟨t, ht, htkind, httext⟩, ⟨u, hu, hukind, hutext⟩, ⟨v, hv, hvkind, hvtext⟩⟩ :=
    hwords
  obtain ⟨hupper, hwhole, hparted, hsame⟩ := hcased
  obtain ⟨hkeyword, -⟩ := casing_keeps_words c f f t u ht hu
  obtain ⟨-, hident, hnames, -⟩ := casing_keeps_words c f f u v hu hv
  rw [htkind, httext] at hkeyword
  rw [hukind, hvkind, hutext, hvtext] at hnames
  refine ⟨hlength, ?_, ?_, (hnames rfl rfl).mp hsame⟩
  · rw [← hupper]
    exact hkeyword rfl hwhole
  · rw [← hparted, ← hutext]
    exact hident hukind .snake

set_option maxRecDepth 10000 in
/-- Where the humps differ, `snake_case` parts one identifier from itself in another spelling, and
makes a name of a reserved word. -/
theorem snake_case_changes_words :
    let c : Casing := { keywords := .snake, identifiers := .snake }
    (Bytes.ReadsAs "dataIn" .ident ∧ Bytes.ReadsAs "datain" .ident ∧
      CaseMap.equalFold "dataIn" "datain" = true ∧
      CaseMap.equalFold (c.name "dataIn") (c.name "datain") = false) ∧
    Bytes.ReadsAs "enTity" .kwEntity ∧ ¬(c.keyword "enTity").ReadsAs .kwEntity := by
  intro c
  have hwords : (Bytes.IsWord "dataIn" ∧ Bytes.IsWord "datain" ∧ Bytes.IsWord "enTity") ∧
      Kind.ofWord "dataIn" = .ident ∧ Kind.ofWord "datain" = .ident ∧
      Kind.ofWord "enTity" = .kwEntity := by decide
  have hcased : CaseMap.equalFold "dataIn" "datain" = true ∧
      CaseMap.equalFold (c.name "dataIn") (c.name "datain") = false ∧
      (SourceFile.ofBytes "a.vhd" (c.keyword "enTity")).words ≠
        [⟨.kwEntity, c.keyword "enTity"⟩] := by decide
  obtain ⟨⟨hdataIn, hdatain, henTity⟩, hdataInKind, hdatainKind, henTityKind⟩ := hwords
  obtain ⟨hsame, hparted, hname⟩ := hcased
  refine ⟨⟨?_, ?_, hsame, hparted⟩, ?_, fun hread => hname (hread _ rfl).1⟩
  · rw [← hdataInKind]
    exact hdataIn.readsAs
  · rw [← hdatainKind]
    exact hdatain.readsAs
  · rw [← henTityKind]
    exact henTity.readsAs

end VhdlStyle
