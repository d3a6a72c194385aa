import VhdlStyle.Token.Lexer

/-! # The extent of tokens and trivia

Every scan stays within the text, and no token that it finds is an end token. -/

namespace VhdlStyle

/-! ## Tokens and trivia lie within the text -/

namespace Lexeme

theorem exponent_cons (e b : UInt8) (rest : Bytes) : exponent (e :: b :: rest) =
    if e == 'e' || e == 'E' then
      if Bytes.isDigit b then 1 + digits Bytes.isDigit (b :: rest)
      else if (b == '+' || b == '-') && rest.head?.any Bytes.isDigit then
        2 + digits Bytes.isDigit rest
      else 0
    else 0 := rfl

theorem countWhile_le (p : UInt8 → Bool) (text : Bytes) : countWhile p text ≤ text.length :=
  List.Sublist.length_le (List.takeWhile_sublist p)

theorem quotedBody_le (text : Bytes) : (quotedBody text).1 ≤ text.length := by
  fun_induction quotedBody text <;> simp_all

theorem extendedBody_le (text : Bytes) : (extendedBody text).1 ≤ text.length := by
  fun_induction extendedBody text <;> simp_all

theorem quoted_le (kind : Kind) (code : Code) (what : Bytes) (n : Nat) (body : Bytes) :
    (quoted kind code what n body).more ≤ n + body.length := by
  have hle := quotedBody_le body
  unfold quoted
  split <;> simp_all

theorem exponent_le (text : Bytes) : exponent text ≤ text.length := by
  match text with
  | [] => exact Nat.le_refl 0
  | [e] => simp [exponent]
  | e :: b :: rest =>
      have hdigits := countWhile_le (fun b => Bytes.isDigit b || b == '_') (b :: rest)
      have hdigits' := countWhile_le (fun b => Bytes.isDigit b || b == '_') rest
      rw [exponent_cons]
      simp only [List.length_cons, digits] at *
      split
      · split
        · omega
        · split <;> omega
      · omega

theorem length_of_drop {text rest : Bytes} {n : Nat} {b : UInt8} (h : text.drop n = b :: rest) :
    n + 1 + rest.length = text.length := by
  have hlength := congrArg List.length h
  simp only [List.length_drop, List.length_cons] at hlength
  omega

theorem based_le (n : Nat) (text : Bytes) : (based n text).more ≤ n + text.length := by
  have hdigits := countWhile_le (fun b => isBasedDigit b || b == '_') text
  unfold based
  extract_lets whole fraction upTo
  have hwhole : whole ≤ text.length := hdigits
  have hupTo : whole + fraction ≤ text.length := by
    cases hdrop : text.drop whole with
    | nil =>
        have hnone : fraction = 0 := by simp only [fraction, hdrop]
        omega
    | cons b rest =>
        have hlength := length_of_drop hdrop
        have hrest : digits isBasedDigit rest ≤ rest.length := countWhile_le _ rest
        have hfraction : fraction ≤ 1 + digits isBasedDigit rest := by
          simp only [fraction, hdrop]
          split
          · exact Nat.le_refl _
          · exact Nat.zero_le _
        omega
  split
  · rename_i b rest hdrop
    have hlength := length_of_drop hdrop
    have hexponent := exponent_le rest
    simp only [upTo] at hlength ⊢
    split <;> · dsimp only; omega
  · simp only [upTo]
    omega

theorem number_le (text : Bytes) : (number text).more ≤ text.length := by
  have hdigits := countWhile_le (fun b => Bytes.isDigit b || b == '_') text
  unfold number
  dsimp only
  split
  · exact hdigits
  · rename_i b after hdrop
    have hlength := length_of_drop hdrop
    have hexponent := exponent_le (b :: after)
    rw [List.length_cons] at hexponent
    split
    · exact Nat.le_trans (based_le _ _) (Nat.le_of_eq hlength)
    · split
      · have hafter := countWhile_le (fun b => Bytes.isDigit b || b == '_') after
        have hrest := exponent_le
          (text.drop (digits Bytes.isDigit text + 1 + digits Bytes.isDigit after))
        rw [List.length_drop] at hrest
        simp only [digits] at *
        omega
      · split
        · rename_i q body hletters
          have hbody := length_of_drop hletters
          rw [List.length_cons] at hbody
          split
          · refine Nat.le_trans (quoted_le _ _ _ _ _) ?_
            omega
          · dsimp only
            omega
        · dsimp only
          omega

theorem word_le (first : UInt8) (text : Bytes) : (word first text).more ≤ text.length := by
  have hcount := countWhile_le isIdentByte text
  unfold word
  dsimp only
  split
  · rename_i b body hdrop
    have hlength := length_of_drop hdrop
    split
    · exact Nat.le_trans (quoted_le _ _ _ _ _) (Nat.le_of_eq hlength)
    · exact hcount
  · exact hcount

set_option maxRecDepth 10000 in
theorem delimiter_length : ∀ entry ∈ delimiters,
    (Bytes.ofString entry.1).length = entry.1.length ∧ entry.1.length ≠ 0 := by
  decide

theorem delimiter_le (first : UInt8) (rest : Bytes) : (delimiter first rest).more ≤ rest.length := by
  unfold delimiter
  split
  · rename_i text kind hfind
    have hlength := (delimiter_length _ (List.mem_of_find?_eq_some hfind)).1
    have hfront := List.find?_some hfind
    have hle := (List.isPrefixOf_iff_prefix.mp hfront).length_le
    rw [List.length_cons] at hle
    dsimp only at hlength hle ⊢
    omega
  · exact countWhile_le _ _

theorem opensCharacter_closes {previous : Kind} {rest : Bytes}
    (h : opensCharacter previous rest = true) : rest[1]? = some ('\'' : UInt8) := by
  unfold opensCharacter at h
  split at h <;> simp_all

theorem scan_le (previous : Kind) (first : UInt8) (rest : Bytes) :
    (scan previous first rest).more ≤ rest.length := by
  unfold scan
  split
  · exact word_le first rest
  · split
    · have hle := extendedBody_le rest
      unfold extended
      split <;> simp_all
    · split
      · exact number_le rest
      · split
        · exact Nat.le_trans (quoted_le _ _ _ 0 rest) (Nat.le_of_eq (Nat.zero_add _))
        · split
          · rename_i hopens
            rw [Bool.and_eq_true] at hopens
            obtain ⟨hlt, -⟩ := List.getElem?_eq_some_iff.mp (opensCharacter_closes hopens.2)
            exact hlt
          · exact delimiter_le first rest

/-! ## The kinds of tokens -/

theorem quoted_kind {kind : Kind} {kinds : List Kind} (hkind : kind ∈ kinds)
    (hinvalid : .invalid ∈ kinds) (code : Code) (what : Bytes) (n : Nat) (body : Bytes) :
    (quoted kind code what n body).kind ∈ kinds := by
  unfold quoted
  split
  · exact hkind
  · exact hinvalid
  · exact hinvalid

/-- The kinds of tokens that start with a letter. -/
def wordKinds : List Kind := .invalid :: .bitStringLit :: .ident :: Kind.keywords

theorem word_kind (first : UInt8) (rest : Bytes) : (word first rest).kind ∈ wordKinds := by
  have hplain (text : Bytes) : (Kind.ofKeyword? text).getD .ident ∈ wordKinds := by
    cases hfind : Kind.ofKeyword? text with
    | none => decide
    | some k =>
        rw [Kind.ofKeyword?] at hfind
        simp [wordKinds, List.mem_of_find?_eq_some hfind]
  unfold word
  dsimp only
  split
  · split
    · exact quoted_kind (by decide) (by decide) ..
    · exact hplain _
  · exact hplain _

/-- The kinds of tokens that start with a digit. -/
def numberKinds : List Kind := [.decimalLit, .basedLit, .bitStringLit, .invalid]

theorem number_kinds (rest : Bytes) : (number rest).kind ∈ numberKinds := by
  unfold number
  dsimp only
  split
  · simp [numberKinds]
  · split
    · unfold based
      dsimp only
      split
      · split <;> simp [numberKinds]
      · simp [numberKinds]
    · split
      · simp [numberKinds]
      · split
        · split
          · exact quoted_kind (by decide) (by decide) ..
          · simp [numberKinds]
        · simp [numberKinds]

theorem delimiter_kind (first : UInt8) (rest : Bytes) :
    (delimiter first rest).kind = .invalid ∨
      ∃ entry ∈ delimiters, (delimiter first rest).kind = entry.2 := by
  unfold delimiter
  split
  · rename_i text kind hfind
    exact .inr ⟨(text, kind), List.mem_of_find?_eq_some hfind, rfl⟩
  · exact .inl rfl

/-- No token of a text is an end token. -/
theorem scan_kind (previous : Kind) (first : UInt8) (rest : Bytes) :
    (scan previous first rest).kind ≠ .eof := by
  have hwords : ∀ k ∈ wordKinds, k ≠ .eof := by decide
  have hnumbers : ∀ k ∈ numberKinds, k ≠ .eof := by decide
  have hstrings : ∀ k ∈ [Kind.stringLit, .invalid], k ≠ .eof := by decide
  have hdelimiters : ∀ entry ∈ delimiters, entry.2 ≠ Kind.eof := by decide
  unfold scan
  split
  · exact hwords _ (word_kind first rest)
  · split
    · unfold extended
      split <;> simp
    · split
      · exact hnumbers _ (number_kinds rest)
      · split
        · exact hstrings _ (quoted_kind (by decide) (by decide) ..)
        · split
          · simp
          · rcases delimiter_kind first rest with h | ⟨entry, hentry, h⟩
            · simp [h]
            · exact h ▸ hdelimiters entry hentry

end Lexeme

namespace TriviaPiece

theorem blockBody_le (text : Bytes) : (blockBody text).1 ≤ text.length := by
  fun_induction blockBody text with
  | case1 => exact Nat.le_refl 0
  | case2 b rest hend =>
      cases rest with
      | nil => simp at hend
      | cons c rest => simp
  | case3 b rest _ n closed hrec ih =>
      rw [hrec] at ih
      simpa using ih

theorem scan?_le {first : UInt8} {rest : Bytes} {piece : TriviaPiece}
    (h : scan? first rest = some piece) : piece.more ≤ rest.length := by
  unfold scan? at h
  split at h
  · obtain rfl := Option.some.inj h
    exact Lexeme.countWhile_le _ _
  · split at h
    · obtain rfl := Option.some.inj h
      exact Lexeme.countWhile_le _ _
    · split at h
      · obtain rfl := Option.some.inj h
        exact Lexeme.countWhile_le _ _
      · split at h
        · rename_i hopen
          obtain rfl := Option.some.inj h
          have hle := blockBody_le (rest.drop 1)
          cases rest with
          | nil => simp at hopen
          | cons b rest => simpa using hle
        · simp at h

end TriviaPiece

end VhdlStyle
