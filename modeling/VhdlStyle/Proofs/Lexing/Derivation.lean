import VhdlStyle.Design.Expr.Parser
import VhdlStyle.Proofs.Lexing.Munch
import VhdlStyle.Proofs.Parsing.Progress

/-! # Derivations of the lexer

Lexing a text without a fault, as rules: trivia is passed over, and each token is the longest one
at its place. The rules do not invoke the lexer; its runs are exactly the derivations. -/

namespace VhdlStyle

/-! ## Derivations -/

/-- The words of a text that is lexed after a token of kind `previous`. -/
inductive Lexed : Kind → Bytes → List Leaf → Prop where
  | done (previous : Kind) : Lexed previous [] []
  | trivia {previous : Kind} {first : UInt8} {t r : Bytes} {words : List Leaf} {kind : TriviaKind}
      (hscan : TriviaPiece.scan? first (t ++ r) = some ⟨kind, t.length, true⟩) :
      Lexed previous r words → Lexed previous (first :: (t ++ r)) words
  | word {previous k : Kind} {first : UInt8} {t r : Bytes} {words : List Leaf}
      (hplain : TriviaPiece.scan? first (t ++ r) = none)
      (hscan : Lexeme.scan previous first (t ++ r) = ⟨k, t.length, none⟩) :
      Lexed k r words → Lexed previous (first :: (t ++ r)) (⟨k, first :: t⟩ :: words)

/-- The words of tokens, without the end token. -/
def Token.words (tokens : List Token) : List Leaf :=
  (tokens.filter fun t => t.kind != .eof).map Expr.leafOf

/-- The words of a source. -/
def SourceFile.words (f : SourceFile) : List Leaf := Token.words f.tokens.1

namespace Lexer

/-! ## Steps of the lexer -/

theorem triviaN_fuel {fuel fuel' : Nat} {lx : Lexer} (h : lx.rest.length ≤ fuel)
    (h' : lx.rest.length ≤ fuel') : triviaN fuel lx = triviaN fuel' lx := by
  induction fuel generalizing fuel' lx with
  | zero =>
      have hnil : lx.rest = [] := List.eq_nil_of_length_eq_zero (by omega)
      cases fuel' with
      | zero => rfl
      | succ fuel' => simp [triviaN, hnil]
  | succ fuel ih =>
      cases fuel' with
      | zero =>
          have hnil : lx.rest = [] := List.eq_nil_of_length_eq_zero (by omega)
          simp [triviaN, hnil]
      | succ fuel' =>
          unfold triviaN
          split
          · rfl
          · rename_i first rest hrest
            split
            · rfl
            · rename_i piece hpiece
              have hlength : (lx.skip (piece.more + 1)).rest.length ≤ rest.length := by
                simp [skip, hrest]
              rw [hrest, List.length_cons] at h h'
              have hrec : triviaN fuel (lx.skip (piece.more + 1)) =
                  triviaN fuel' (lx.skip (piece.more + 1)) := ih (by omega) (by omega)
              dsimp only
              rw [hrec]

section

variable {lx : Lexer} {first : UInt8} {rest : Bytes}

theorem scanToken_nil (h : lx.rest = []) :
    lx.scanToken.1.kind = .eof ∧ lx.scanToken.2.1 = [] := by
  simp [scanToken, trivia, triviaN, h]

/-- Trivia does not change the token behind it. -/
theorem scanToken_trivia {piece : TriviaPiece} (h : lx.rest = first :: rest)
    (hpiece : TriviaPiece.scan? first rest = some piece) :
    let after := (lx.skip (piece.more + 1)).scanToken
    Expr.leafOf lx.scanToken.1 = Expr.leafOf after.1 ∧ lx.scanToken.2.2 = after.2.2 ∧
      (lx.scanToken.2.1 = [] ↔ piece.closed = true ∧ after.2.1 = []) := by
  intro after
  have hshort : (lx.skip (piece.more + 1)).rest.length ≤ rest.length := by simp [skip, h]
  have htrivia : ∃ (tr : Trivia) (faults : List Diagnostic),
      lx.trivia = (tr :: (lx.skip (piece.more + 1)).trivia.1,
        faults ++ (lx.skip (piece.more + 1)).trivia.2.1, (lx.skip (piece.more + 1)).trivia.2.2) ∧
      (faults = [] ↔ piece.closed = true) := by
    refine ⟨⟨piece.kind, lx.spanOf (piece.more + 1), lx.rest.take (piece.more + 1)⟩,
      if piece.closed then [] else [.ofError .unterminatedBlockComment (lx.spanOf (piece.more + 1))
        "unterminated block comment"], ?_, by cases piece.closed <;> simp⟩
    have hrec : triviaN rest.length (lx.skip (piece.more + 1)) = (lx.skip (piece.more + 1)).trivia :=
      triviaN_fuel hshort (Nat.le_refl _)
    simp only [trivia, h, List.length_cons, triviaN, hpiece]
    rw [hrec]
    rfl
  obtain ⟨tr, faults, heq, hfaults⟩ := htrivia
  simp only [after, scanToken, heq]
  cases (lx.skip (piece.more + 1)).trivia.2.2.rest with
  | nil => simp [Expr.leafOf, hfaults]
  | cons b bs => simp [Expr.leafOf, hfaults]

theorem scanToken_word (h : lx.rest = first :: rest) (hplain : TriviaPiece.scan? first rest = none) :
    let lexeme := Lexeme.scan lx.previous first rest
    Expr.leafOf lx.scanToken.1 = ⟨lexeme.kind, first :: rest.take lexeme.more⟩ ∧
      lx.scanToken.2.2 = { lx.skip (lexeme.more + 1) with previous := lexeme.kind } ∧
      (lx.scanToken.2.1 = [] ↔ lexeme.fault = none) := by
  have htrivia : lx.trivia = ([], [], lx) := by simp [trivia, triviaN, h, hplain]
  simp only [scanToken, htrivia, h]
  refine ⟨rfl, trivial, ?_⟩
  cases (Lexeme.scan lx.previous first rest).fault <;> simp

theorem scanToken_kind (h : lx.rest = first :: rest)
    (hplain : TriviaPiece.scan? first rest = none) : lx.scanToken.1.kind ≠ .eof := by
  obtain ⟨hleaf, -⟩ := scanToken_word h hplain
  have heq : lx.scanToken.1.kind = (Lexeme.scan lx.previous first rest).kind :=
    congrArg Leaf.kind hleaf
  rw [heq]
  exact Lexeme.scan_kind lx.previous first rest

theorem skip_rest {t r : Bytes} (h : lx.rest = first :: (t ++ r)) : (lx.skip (t.length + 1)).rest = r := by
  simp [skip, h]

end

theorem allN_end {lx : Lexer} (hlook : lx.look = none) (hkind : lx.scanToken.1.kind = .eof)
    (fuel : Nat) :
    Token.words (allN (fuel + 1) lx).1 = [] ∧ (allN (fuel + 1) lx).2.1 = lx.scanToken.2.1 := by
  have hnext : lx.next = lx.scanToken := by rw [next, hlook]
  rw [allN, hnext]
  simp [hkind, Token.words]

theorem allN_token {lx : Lexer} (hlook : lx.look = none) (hkind : lx.scanToken.1.kind ≠ .eof)
    (fuel : Nat) :
    Token.words (allN (fuel + 1) lx).1 =
        Expr.leafOf lx.scanToken.1 :: Token.words (allN fuel lx.scanToken.2.2).1 ∧
      (allN (fuel + 1) lx).2.1 = lx.scanToken.2.1 ++ (allN fuel lx.scanToken.2.2).2.1 := by
  have hnext : lx.next = lx.scanToken := by rw [next, hlook]
  rw [allN, hnext]
  simp [hkind, Token.words]

/-- The words behind trivia are those of the whole text. -/
theorem allN_trivia {lx : Lexer} {first : UInt8} {rest : Bytes} {piece : TriviaPiece}
    (hlook : lx.look = none) (h : lx.rest = first :: rest)
    (hpiece : TriviaPiece.scan? first rest = some piece) (fuel : Nat) :
    let after := allN (fuel + 1) (lx.skip (piece.more + 1))
    Token.words (allN (fuel + 1) lx).1 = Token.words after.1 ∧
      ((allN (fuel + 1) lx).2.1 = [] ↔ piece.closed = true ∧ after.2.1 = []) := by
  intro after
  obtain ⟨hleaf, hplace, hfaults⟩ := scanToken_trivia h hpiece
  have hkind := congrArg Leaf.kind hleaf
  have hlook' : (lx.skip (piece.more + 1)).look = none := hlook
  simp only [Expr.leafOf] at hkind
  by_cases hend : lx.scanToken.1.kind = .eof
  · obtain ⟨hwords, hall⟩ := allN_end hlook hend fuel
    obtain ⟨hwords', hall'⟩ := allN_end hlook' (hkind ▸ hend) fuel
    simp only [after]
    rw [hwords, hwords', hall, hall']
    exact ⟨rfl, hfaults⟩
  · obtain ⟨hwords, hall⟩ := allN_token hlook hend fuel
    obtain ⟨hwords', hall'⟩ := allN_token hlook' (hkind ▸ hend) fuel
    simp only [after]
    rw [hwords, hwords', hall, hall', hleaf, hplace, List.append_eq_nil_iff,
      List.append_eq_nil_iff, hfaults, and_assoc]
    exact ⟨rfl, Iff.rfl⟩

/-- A text that can be derived is lexed to its words, without faults. -/
theorem allN_of_lexed {previous : Kind} {text : Bytes} {words : List Leaf}
    (h : Lexed previous text words) (lx : Lexer) (hprevious : lx.previous = previous)
    (hrest : lx.rest = text) (hlook : lx.look = none) (fuel : Nat) (hfuel : text.length ≤ fuel) :
    Token.words (allN (fuel + 1) lx).1 = words ∧ (allN (fuel + 1) lx).2.1 = [] := by
  induction h generalizing lx fuel with
  | done previous =>
      obtain ⟨hkind, hfaults⟩ := scanToken_nil hrest
      have hall := allN_end hlook hkind fuel
      rw [hfaults] at hall
      exact hall
  | @trivia previous first t r words kind hscan _ ih =>
      obtain ⟨hwords, hfaults⟩ := allN_trivia hlook hrest hscan fuel
      have hrec := ih (lx.skip (t.length + 1)) hprevious (skip_rest hrest) hlook fuel
        (by simp at hfuel; omega)
      exact ⟨hwords.trans hrec.1, hfaults.mpr ⟨rfl, hrec.2⟩⟩
  | @word previous k first t r words hplain hscan _ ih =>
      obtain ⟨hleaf, hplace, hfaults⟩ := scanToken_word hrest hplain
      have hkind := scanToken_kind hrest hplain
      subst hprevious
      rw [hscan] at hleaf hplace hfaults
      obtain ⟨hwords, hall⟩ := allN_token hlook hkind fuel
      cases fuel with
      | zero => simp at hfuel
      | succ fuel =>
          have hrec := ih lx.scanToken.2.2 (by rw [hplace]) (by rw [hplace]; exact skip_rest hrest)
            (by rw [hplace]; exact hlook) fuel (by simp at hfuel; omega)
          rw [hwords, hall, hrec.1, hrec.2, hleaf, hfaults.mpr rfl]
          simp

theorem exists_split {text : Bytes} {n : Nat} (h : n ≤ text.length) :
    ∃ t r, text = t ++ r ∧ t.length = n :=
  ⟨text.take n, text.drop n, (List.take_append_drop n text).symm, List.length_take_of_le h⟩

/-- What is lexed without faults can be derived. -/
theorem lexed_of_allN (lx : Lexer) (fuel : Nat) (hlook : lx.look = none)
    (hfuel : lx.rest.length ≤ fuel) (hfaults : (allN (fuel + 1) lx).2.1 = []) :
    Lexed lx.previous lx.rest (Token.words (allN (fuel + 1) lx).1) := by
  -- trivia uses up bytes but no fuel, tokens use up both
  induction hsize : lx.rest.length using Nat.strong_induction_on generalizing lx fuel with
  | _ size ih =>
    cases hrest : lx.rest with
    | nil =>
        obtain ⟨hkind, -⟩ := scanToken_nil hrest
        rw [(allN_end hlook hkind fuel).1]
        exact .done lx.previous
    | cons first rest =>
        have hlength : rest.length + 1 = size := by rw [← hsize, hrest, List.length_cons]
        cases hpiece : TriviaPiece.scan? first rest with
        | some piece =>
            obtain ⟨t, r, rfl, hmore⟩ := exists_split (TriviaPiece.scan?_le hpiece)
            obtain ⟨hwords, hall⟩ := allN_trivia hlook hrest hpiece fuel
            obtain ⟨hclosed, hafter⟩ := hall.mp hfaults
            rw [← hmore] at hwords hafter
            have hr := skip_rest hrest
            have hshort : r.length < size := by
              rw [← hlength, List.length_append]
              omega
            have hrec := ih r.length hshort (lx.skip (t.length + 1)) fuel hlook
              (by rw [hr]; omega) hafter (by rw [hr])
            rw [hr, ← hwords] at hrec
            have hscan : TriviaPiece.scan? first (t ++ r) = some ⟨piece.kind, t.length, true⟩ := by
              rw [hpiece, hmore, ← hclosed]
            exact .trivia hscan hrec
        | none =>
            obtain ⟨t, r, rfl, hmore⟩ := exists_split (Lexeme.scan_le lx.previous first rest)
            obtain ⟨hleaf, hplace, hfault⟩ := scanToken_word hrest hpiece
            have hkind := scanToken_kind hrest hpiece
            obtain ⟨hwords, hall⟩ := allN_token hlook hkind fuel
            rw [hall, List.append_eq_nil_iff] at hfaults
            obtain ⟨hnone, hafter⟩ := hfaults
            have hr := skip_rest hrest
            rw [← hmore] at hplace hleaf
            cases fuel with
            | zero => omega
            | succ fuel =>
                have hrest' : lx.scanToken.2.2.rest = r := by
                  rw [hplace]
                  exact hr
                have hshort : r.length < size := by
                  rw [← hlength, List.length_append]
                  omega
                have hrec := ih r.length hshort lx.scanToken.2.2 fuel (by rw [hplace]; exact hlook)
                  (by rw [hrest']; omega) hafter (by rw [hrest'])
                rw [hrest', hplace] at hrec
                rw [hwords, hleaf, List.take_left, hplace]
                refine .word hpiece ?_ hrec
                rw [hmore, ← hfault.mp hnone]

end Lexer

theorem SourceFile.lexed {f : SourceFile} (h : f.tokens.2 = []) : Lexed .invalid f.content f.words :=
  Lexer.lexed_of_allN (Lexer.ofFile f) (f.content.length + 1) rfl (Nat.le_succ _) h

theorem SourceFile.words_of_lexed {f : SourceFile} {words : List Leaf}
    (h : Lexed .invalid f.content words) : f.words = words ∧ f.tokens.2 = [] :=
  Lexer.allN_of_lexed h (Lexer.ofFile f) rfl rfl rfl (f.content.length + 1) (Nat.le_succ _)

end VhdlStyle
