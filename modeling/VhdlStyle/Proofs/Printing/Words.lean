import VhdlStyle.Proofs.Layout.Gaps
import VhdlStyle.Proofs.LineEnds.Returns
import VhdlStyle.Proofs.Text.AsciiTexts
import VhdlStyle.Proofs.Tokens.Edges

/-! # Words and comments in print

A text reads as a comment when it starts with the mark of one. No word of a program does, and
casing does not turn it into one. Neither does a word end a line with a carriage return, or hold a
line that shows nothing. -/

namespace VhdlStyle

namespace Bytes

/-- The text starts like a line comment. -/
def isLineComment : Bytes → Bool
  | a :: b :: _ => a == '-' && b == '-'
  | _ => false

/-- The text starts like a line comment or a block comment. -/
def isComment : Bytes → Bool
  | a :: b :: _ => (a == '-' && b == '-') || (a == '/' && b == '*')
  | _ => false

/-- The first byte is ASCII, shows something and is in no mark of a comment. -/
def startsWord : Bytes → Bool
  | [] => false
  | b :: _ => b < 0x80 && b != '-' && b != '/' && isInk b

theorem ne_nil_of_startsWord {s : Bytes} (h : s.startsWord = true) : s ≠ [] := by
  rintro rfl
  exact Bool.false_ne_true h

theorem startsWord_append {s : Bytes} (h : s.startsWord = true) (more : Bytes) :
    (s ++ more).startsWord = true := by
  cases s with
  | nil => simp [startsWord] at h
  | cons b rest => exact h

theorem isComment_of_startsWord {s : Bytes} (h : s.startsWord = true) : s.isComment = false := by
  match s with
  | [] => rfl
  | [_] => rfl
  | a :: b :: rest => simp_all [startsWord, isComment]

/-- The text is no comment, and no carriage return ends a line of it. -/
def isCode (s : Bytes) : Bool := !s.isComment && s.isSettled

theorem isCode_iff {s : Bytes} : s.isCode = true ↔ s.isComment = false ∧ s.isSettled = true := by
  simp [isCode]

/-- The text is code in any casing, and each of its lines shows something. -/
def InCode (s : Bytes) : Prop :=
  ∀ style : CaseStyle, isCode (style.apply s) = true ∧
    (s ≠ [] → inked false (style.apply s) = true)

/-- One line of ASCII without carriage returns that starts like a word. -/
def isPlain (s : Bytes) : Bool := s.startsWord && s.all fun b => b < 0x80 && b != cr && b != lf

theorem isPlain_iff {s : Bytes} :
    s.isPlain = true ↔ s.startsWord = true ∧ s.Ascii ∧ cr ∉ s ∧ lf ∉ s := by
  simp only [isPlain, Bool.and_eq_true, List.all_eq_true, decide_eq_true_eq, bne_iff_ne, Ascii]
  constructor
  · rintro ⟨hstart, hall⟩
    exact ⟨hstart, fun b hb => (hall b hb).1.1, fun hcr => (hall _ hcr).1.2 rfl,
      fun hlf => (hall _ hlf).2 rfl⟩
  · rintro ⟨hstart, hascii, hcr, hlf⟩
    exact ⟨hstart, fun b hb => ⟨⟨hascii b hb, fun heq => hcr (heq ▸ hb)⟩,
      fun heq => hlf (heq ▸ hb)⟩⟩

/-- Plain texts one behind the other, apart. -/
theorem isPlain_pair {s t : Bytes} (hs : s.isPlain = true) (ht : t.isPlain = true) :
    isPlain (List.flatten [s, " ", t]) = true := by
  rw [isPlain_iff] at hs ht ⊢
  obtain ⟨hstart, hsAscii, hsReturn, hsLine⟩ := hs
  refine ⟨startsWord_append hstart _, ?_, by simpa using ⟨hsReturn, by decide, ht.2.2.1⟩,
    by simpa using ⟨hsLine, by decide, ht.2.2.2⟩⟩
  have hspace : (" " : Bytes).all (· < 0x80) = true := by decide
  rw [Ascii]
  simp only [List.flatten_cons, List.flatten_nil, List.append_nil, List.forall_mem_append]
  exact ⟨hsAscii, by simpa only [List.all_eq_true, decide_eq_true_eq] using hspace, ht.2.1⟩

end Bytes

/-! ## Casing -/

namespace CaseStyle

set_option maxRecDepth 10000 in
theorem startsWord_byte : ∀ b : UInt8, Bytes.startsWord [b] = true →
    Bytes.startsWord [Bytes.lowerByte b] = true ∧ Bytes.startsWord [Bytes.upperByte b] = true :=
  Lexeme.byte_induction (by decide)

/-- Casing keeps the start of a word. -/
theorem startsWord_apply (style : CaseStyle) {s : Bytes} (h : s.startsWord = true) :
    (style.apply s).startsWord = true := by
  cases s with
  | nil => simp [Bytes.startsWord] at h
  | cons b rest =>
      have hfirst : Bytes.startsWord [b] = true := h
      have hb : b < 0x80 := by
        simp only [Bytes.startsWord, Bool.and_eq_true, decide_eq_true_eq] at h
        exact h.1.1.1
      rw [apply.eq_def]
      split
      · exact h
      · cases style with
        | lower =>
            obtain ⟨tail, htail⟩ := CaseMap.lower_cons hb rest
            rw [htail]
            exact (startsWord_byte b hfirst).1
        | upper =>
            obtain ⟨tail, htail⟩ := CaseMap.upper_cons hb rest
            rw [htail]
            exact (startsWord_byte b hfirst).2
        | preserve => exact h
        | snake =>
            obtain ⟨humps, hhumps⟩ := splitHumps_cons hb rest
            obtain ⟨tail, htail⟩ := CaseMap.lower_cons hb humps
            dsimp only
            rw [hhumps, htail]
            exact (startsWord_byte b hfirst).1

/-- The byte comes from no other by casing, and casing puts it nowhere. -/
def Fixed (c : UInt8) : Prop :=
  c ≠ '_' ∧ ∀ b : UInt8, Bytes.lowerByte b = c ∨ Bytes.upperByte b = c → b = c

set_option maxRecDepth 10000 in
theorem fixed_cr : Fixed Bytes.cr := ⟨by decide, Lexeme.byte_induction (by decide)⟩

set_option maxRecDepth 10000 in
theorem fixed_lf : Fixed Bytes.lf := ⟨by decide, Lexeme.byte_induction (by decide)⟩

/-- Casing makes up no carriage return and no line feed. -/
theorem Fixed.not_mem_apply {c : UInt8} (hc : Fixed c) (style : CaseStyle) {s : Bytes}
    (hascii : s.Ascii) (hs : c ∉ s) : c ∉ style.apply s := by
  have hlower {t : Bytes} (ht : c ∉ t) : c ∉ t.map Bytes.lowerByte := by
    rintro hmem
    obtain ⟨b, hb, heq⟩ := List.mem_map.mp hmem
    exact ht (hc.2 b (.inl heq) ▸ hb)
  rw [apply.eq_def]
  split
  · exact hs
  cases style with
  | lower =>
      dsimp only
      rw [CaseMap.lower_ascii hascii]
      exact hlower hs
  | upper =>
      dsimp only
      rw [CaseMap.upper_ascii hascii]
      rintro hmem
      obtain ⟨b, hb, heq⟩ := List.mem_map.mp hmem
      exact hs (hc.2 b (.inr heq) ▸ hb)
  | preserve => exact hs
  | snake =>
      cases s with
      | nil => exact List.not_mem_nil
      | cons b rest =>
          obtain ⟨humps, hhumps, hsub, -⟩ := exists_splitHumps hascii
          obtain ⟨hb, hrest⟩ := hascii.of_cons
          rw [List.mem_cons, not_or] at hs
          have hascii' : Bytes.Ascii (b :: humps) := by
            intro a ha
            rcases List.mem_cons.mp ha with rfl | ha
            · exact hb
            · rcases List.mem_cons.mp (hsub ha) with rfl | ha
              · decide
              · exact hrest a ha
          dsimp only
          rw [hhumps, CaseMap.lower_ascii hascii']
          refine hlower fun hmem => ?_
          rcases List.mem_cons.mp hmem with heq | hmem
          · exact hs.1 heq
          · rcases List.mem_cons.mp (hsub hmem) with heq | hmem
            · exact hc.1 heq
            · exact hs.2 hmem

theorem apply_of_isVerbatim (style : CaseStyle) {s : Bytes} (h : isVerbatim s = true) :
    style.apply s = s := by rw [apply.eq_def, if_pos h]

theorem apply_preserve (s : Bytes) : preserve.apply s = s := by
  rw [apply.eq_def]
  split <;> rfl

theorem isVerbatim_of_quote {s : Bytes} (h : ('"' : UInt8) ∈ s) : isVerbatim s = true := by
  cases s with
  | nil => rfl
  | cons b rest =>
      simp only [isVerbatim, Bool.or_eq_true]
      exact .inr (List.contains_iff_mem.mpr h)

/-- What stands behind a literal is left as it is with it. -/
theorem isVerbatim_append {s : Bytes} (h : isVerbatim s = true) (hs : s ≠ []) (more : Bytes) :
    isVerbatim (s ++ more) = true := by
  cases s with
  | nil => exact absurd rfl hs
  | cons b rest =>
      simp only [isVerbatim, List.cons_append, Bool.or_eq_true] at h ⊢
      refine h.imp_right fun hquote => ?_
      rw [List.contains_iff_mem] at hquote ⊢
      exact List.mem_append_left more hquote

end CaseStyle

namespace Bytes

theorem inCode_nil : InCode [] := by
  intro style
  exact ⟨by cases style <;> rfl, fun hne => absurd rfl hne⟩

/-- A line that starts like a word shows something. -/
theorem inked_of_startsWord {s : Bytes} (h : s.startsWord = true) (hlf : lf ∉ s) :
    inked false s = true := by
  cases s with
  | nil => simp [startsWord] at h
  | cons b rest =>
      rw [List.mem_cons, not_or] at hlf
      exact inked_of_isInk (Bool.and_eq_true_iff.mp h).2 hlf.2

theorem inCode_of_isPlain {s : Bytes} (h : s.isPlain = true) : s.InCode := by
  obtain ⟨hstart, hascii, hcr, hlf⟩ := isPlain_iff.mp h
  intro style
  have hstart' := style.startsWord_apply hstart
  exact ⟨isCode_iff.mpr ⟨isComment_of_startsWord hstart',
    isSettled_of_not_mem (CaseStyle.fixed_cr.not_mem_apply style hascii hcr)⟩,
    fun _ => inked_of_startsWord hstart' (CaseStyle.fixed_lf.not_mem_apply style hascii hlf)⟩

theorem inCode_of_isVerbatim {s : Bytes} (hverbatim : CaseStyle.isVerbatim s = true)
    (hstart : s.startsWord = true) (hsettled : s.isSettled = true)
    (hinked : inked false s = true) : s.InCode := by
  intro style
  rw [style.apply_of_isVerbatim hverbatim]
  exact ⟨isCode_iff.mpr ⟨isComment_of_startsWord hstart, hsettled⟩, fun _ => hinked⟩

namespace InCode

variable {s : Bytes} (h : s.InCode)

include h

theorem isCode_apply (style : CaseStyle) : isCode (style.apply s) = true := (h style).1

theorem isSettled (style : CaseStyle) : Bytes.isSettled (style.apply s) = true :=
  (isCode_iff.mp (h.isCode_apply style)).2

/-- Text that is kept as it is. -/
theorem isCode_eq : s.isCode = true := by
  have hcode := h.isCode_apply .preserve
  rwa [CaseStyle.apply_preserve] at hcode

theorem inked_eq (hne : s ≠ []) : inked false s = true := by
  have hinked := (h .preserve).2 hne
  rwa [CaseStyle.apply_preserve] at hinked

/-- A word may stand behind others on its line. -/
theorem inked_behind (style : CaseStyle) : inked true (style.apply s) = true := by
  by_cases hnil : s = []
  · rw [hnil, style.apply_of_isVerbatim rfl]
    rfl
  · exact inked_of_inked_false ((h style).2 hnil) true

end InCode

end Bytes

/-! ## Words of a source -/

namespace Leaf

variable {l : Leaf}

set_option maxRecDepth 10000 in
/-- A word that is no delimiter starts like a word. -/
theorem Sound.startsWord (h : l.Sound) (hk : l.kind ∉ Lexeme.delimiterKinds) :
    l.text.startsWord = true := by
  have hbyte : ∀ b : UInt8, Lexeme.isIdentByte b = true → Bytes.startsWord [b] = true :=
    Lexeme.byte_induction (by decide)
  obtain ⟨b, rest, htext, -, hscan⟩ := h.exists_cons
  rw [htext]
  change Bytes.startsWord [b] = true
  unfold Lexeme.scan at hscan
  split at hscan
  · rename_i hb
    exact hbyte b (by simp [Lexeme.isIdentByte, hb])
  · split at hscan
    · rename_i hb
      rw [beq_iff_eq.mp hb]
      rfl
    · split at hscan
      · rename_i hb
        exact hbyte b (by simp [Lexeme.isIdentByte, hb])
      · split at hscan
        · rename_i hb
          rw [beq_iff_eq.mp hb]
          rfl
        · split at hscan
          · rename_i hb
            rw [beq_iff_eq.mp (Bool.and_eq_true_iff.mp hb).1]
            rfl
          · unfold Lexeme.delimiter at hscan
            split at hscan
            · rename_i hfind
              have hmem := List.mem_map_of_mem (f := Prod.snd) (List.mem_of_find?_eq_some hfind)
              obtain rfl := congrArg Lexeme.kind hscan
              exact absurd hmem hk
            · simp at hscan

set_option maxRecDepth 10000 in
theorem plainByte : ∀ b : UInt8, Lexeme.isPlainByte b = true →
    b < 0x80 ∧ b ≠ Bytes.cr ∧ b ≠ Bytes.lf := Lexeme.byte_induction (by decide)

/-- What a quote closes is settled by it. -/
theorem isSettled_of_enclosed {quote : UInt8} {front s : Bytes} (hfront : Bytes.lf ∉ front)
    (hlf : quote ≠ Bytes.lf) (hcr : quote ≠ Bytes.cr) (hblank : Writer.isBlank quote = false)
    (h : Lexeme.Enclosed quote s) : Bytes.isSettled (front ++ s) = true := by
  induction h generalizing front with
  | close => exact Bytes.isSettled_concat hfront hlf hcr hblank
  | double _ ih =>
      have hlonger : Bytes.lf ∉ front ++ [quote, quote] := by simp [hfront, hlf.symm]
      have hmore := ih hlonger
      rwa [List.append_assoc] at hmore
  | @byte b _ _ hb _ ih =>
      have hlonger : Bytes.lf ∉ front ++ [b] := by simp [hfront, hb.symm]
      have hmore := ih hlonger
      rwa [List.append_assoc] at hmore

/-- What a quote closes stays on its line. -/
theorem lf_not_mem_of_enclosed {quote : UInt8} {s : Bytes} (hlf : Bytes.lf ≠ quote)
    (h : Lexeme.Enclosed quote s) : Bytes.lf ∉ s := by
  induction h with
  | close => simpa using hlf
  | double _ ih => simpa [hlf] using ih
  | byte _ hb _ ih => simpa [hb.symm] using ih

theorem Sound.isPlain_of_bytes (h : l.Sound) (hk : l.kind ∉ Lexeme.delimiterKinds)
    (hplain : ∀ b ∈ l.text, Lexeme.isPlainByte b = true) : l.text.isPlain = true :=
  Bytes.isPlain_iff.mpr ⟨h.startsWord hk, fun b hb => (plainByte b (hplain b hb)).1,
    fun hcr => (plainByte _ (hplain _ hcr)).2.1 rfl,
    fun hlf => (plainByte _ (hplain _ hlf)).2.2 rfl⟩

/-- A reserved word is plain. -/
theorem Sound.isPlain_keyword (h : l.Sound) (hk : l.kind ∈ Kind.keywords) :
    l.text.isPlain = true := by
  have hother : ∀ k ∈ Kind.keywords, k ∉ Lexeme.delimiterKinds ∧
      k ∉ [Kind.bitStringLit, .stringLit] ∧ k ≠ .extIdent ∧ k ≠ .charLit := by decide
  obtain ⟨hdelimiter, hstring, hextended, hcharacter⟩ := hother _ hk
  rcases h.shape hdelimiter with hplain | ⟨-, hkind⟩ | ⟨_, -, -, hkind⟩ | ⟨_, -, hkind⟩
  · exact h.isPlain_of_bytes hdelimiter hplain
  · exact absurd hkind hstring
  · exact absurd hkind hextended
  · exact absurd hkind hcharacter

/-- A word that is not plain is left as it is, no carriage return ends it, and each of its lines
shows something. -/
theorem Sound.isPlain_or_verbatim (h : l.Sound) (hk : l.kind ∉ Lexeme.delimiterKinds) :
    l.text.isPlain = true ∨ CaseStyle.isVerbatim l.text = true ∧ l.text.isSettled = true ∧
      Bytes.inked false l.text = true := by
  have hstart := h.startsWord hk
  rcases h.shape hk with hplain | ⟨⟨front, body, htext, hfront, hbody⟩, -⟩ |
    ⟨body, htext, hbody, -⟩ | ⟨b, htext, -⟩
  · exact .inl (h.isPlain_of_bytes hk hplain)
  · have hlf : Bytes.lf ∉ front ++ [('"' : UInt8)] := by
      rw [List.mem_append, List.mem_singleton, not_or]
      exact ⟨fun hmem => (plainByte _ (hfront _ hmem)).2.2 rfl, by decide⟩
    have hline := lf_not_mem_of_enclosed (by decide) hbody
    refine .inr ⟨?_, ?_, Bytes.inked_of_startsWord hstart ?_⟩
    · rw [htext, CaseStyle.isVerbatim_of_quote (by simp)]
    · have hsettled := isSettled_of_enclosed hlf (by decide) (by decide) (by decide) hbody
      rw [htext]
      rwa [List.append_assoc] at hsettled
    · rw [htext, ← List.singleton_append, ← List.append_assoc, List.mem_append, not_or]
      exact ⟨hlf, hline⟩
  · have hfront : Bytes.lf ∉ [('\\' : UInt8)] := by decide
    have hline := lf_not_mem_of_enclosed (by decide) hbody
    refine .inr ⟨by rw [htext]; rfl, ?_, Bytes.inked_of_startsWord hstart ?_⟩
    · rw [htext]
      exact isSettled_of_enclosed hfront (by decide) (by decide) (by decide) hbody
    · rw [htext]
      exact List.not_mem_cons_of_ne_of_not_mem (by decide) hline
  · refine .inr ⟨by rw [htext]; rfl, ?_⟩
    -- whatever byte stands between the quotes, the last one ends the text
    rw [htext] at hstart ⊢
    by_cases hlf : b = Bytes.lf
    · rw [hlf]
      exact ⟨rfl, rfl⟩
    · have hline : Bytes.lf ∉ [('\'' : UInt8), b] := by simpa using ⟨by decide, Ne.symm hlf⟩
      refine ⟨Bytes.isSettled_concat (s := ['\'', b]) hline (by decide) (by decide) (by decide),
        Bytes.inked_of_startsWord hstart ?_⟩
      simpa using ⟨by decide, Ne.symm hlf, by decide⟩

/-- A number is left as it is. -/
theorem Sound.isVerbatim_number (h : l.Sound) (hk : l.kind = .decimalLit ∨ l.kind = .basedLit) :
    CaseStyle.isVerbatim l.text = true := by
  have hwords : ∀ k ∈ Lexeme.wordKinds, k ≠ .decimalLit ∧ k ≠ .basedLit := by decide
  have hdelimiters : ∀ entry ∈ Lexeme.delimiters,
      entry.2 ≠ .decimalLit ∧ entry.2 ≠ .basedLit := by decide
  obtain ⟨b, rest, htext, -, hscan⟩ := h.exists_cons
  have hkind : (Lexeme.scan .invalid b rest).kind = l.kind := by rw [hscan]
  rw [← hkind] at hk
  rw [htext]
  unfold Lexeme.scan at hk
  split at hk
  · have hword := hwords _ (Lexeme.word_kind b rest)
    exact (hk.elim hword.1 hword.2).elim
  split at hk
  · rename_i hb
    rw [beq_iff_eq.mp hb]
    rfl
  split at hk
  · rename_i hb
    simp [CaseStyle.isVerbatim, hb]
  split at hk
  · rename_i hb
    rw [beq_iff_eq.mp hb]
    rfl
  split at hk
  · rename_i hopens
    rw [beq_iff_eq.mp (Bool.and_eq_true_iff.mp hopens).1]
    rfl
  · rcases Lexeme.delimiter_kind b rest with hinvalid | ⟨entry, hentry, heq⟩
    · simp [hinvalid] at hk
    · rw [heq] at hk
      exact (hk.elim (hdelimiters entry hentry).1 (hdelimiters entry hentry).2).elim

/-- Every word of a source is code. -/
theorem Sound.inCode (h : l.Sound) : l.text.InCode := by
  by_cases hk : l.kind ∈ Lexeme.delimiterKinds
  · have hall : ∀ entry ∈ Lexeme.delimiters, ∀ style ∈ CaseStyle.all,
        Bytes.isCode (style.apply (Bytes.ofString entry.1)) = true ∧
          Bytes.inked false (style.apply (Bytes.ofString entry.1)) = true := by decide
    obtain ⟨entry, hentry, -, htext⟩ := h.delimiter hk
    rw [htext]
    intro style
    exact (hall entry hentry style (by cases style <;> decide)).imp_right fun hinked _ => hinked
  · rcases h.isPlain_or_verbatim hk with hplain | ⟨hverbatim, hsettled, hinked⟩
    · exact Bytes.inCode_of_isPlain hplain
    · exact Bytes.inCode_of_isVerbatim hverbatim (h.startsWord hk) hsettled hinked

end Leaf

end VhdlStyle
