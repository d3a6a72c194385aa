import VhdlStyle.Proofs.Parsing.Actions

/-! # Two runs over the same words

Two lists of tokens with the same words may differ in spans and in trivia. As long as no trivia
holds a comment or a blank line, a run of the parser over one list goes like a run over the
other. -/

namespace VhdlStyle

/-! ## Tokens without anything to take in front of them -/

/-- Neither a comment nor a blank line stands in front of the token. -/
structure Token.Plain (t : Token) : Prop where
  row : Comment.ofTrivia t.leading = ([], false)
  inline : Parse.inlineOf t.leading = none

theorem Token.Plain.of_leading_nil {t : Token} (h : t.leading = []) : t.Plain := by
  refine ⟨?_, ?_⟩
  · rw [h]
    rfl
  · rw [h]
    rfl

namespace ParseState

/-- No token that is still to be read has a comment or a blank line in front of it, and no comment
is pending. -/
structure Plain (s : ParseState) : Prop where
  tokens : ∀ t ∈ s.rest, t.Plain
  pending : s.pending = []

/-- The states of two runs: the same words are still to be read, nothing but words, and as many
errors have been reported. -/
structure Alike (s t : ParseState) : Prop where
  leaves : s.leaves = t.leaves
  errors : s.errors = t.errors
  left : s.Plain
  right : t.Plain

theorem Plain.current {s : ParseState} (h : s.Plain) : s.current.Plain := by
  cases hrest : s.rest with
  | nil => exact .of_leading_nil (by simp [ParseState.current, hrest])
  | cons t rest =>
      rw [ParseState.current, hrest]
      exact h.tokens t (by simp [hrest])

theorem Plain.setLeading {s : ParseState} (h : s.Plain) : (s.setLeading []).Plain := by
  unfold ParseState.setLeading
  split
  · exact h
  · rename_i t rest hrest
    refine ⟨List.forall_mem_cons.mpr ⟨.of_leading_nil rfl, fun u hu => h.tokens u ?_⟩, h.pending⟩
    rw [hrest]
    exact List.mem_cons_of_mem t hu

@[simp] theorem leaves_setLeading (s : ParseState) (leading : List Trivia) :
    (s.setLeading leading).leaves = s.leaves := by
  unfold setLeading
  split
  · rfl
  · rename_i hrest
    simp [leaves, hrest, Expr.leafOf]

/-- A row takes nothing but the place in front of its first token. -/
theorem Plain.taken {s : ParseState} (h : s.Plain) : (Parse.tail s).2.Plain :=
  ⟨h.setLeading.tokens, rfl⟩

theorem leaves_taken (s : ParseState) : (Parse.tail s).2.leaves = s.leaves := s.leaves_setLeading []

theorem errors_taken (s : ParseState) : (Parse.tail s).2.errors = s.errors := s.setLeading_errors []

theorem Alike.taken {s t : ParseState} (h : s.Alike t) :
    (Parse.tail s).2.Alike (Parse.tail t).2 where
  leaves := by rw [leaves_taken, leaves_taken, h.leaves]
  errors := by rw [errors_taken, errors_taken, h.errors]
  left := h.left.taken
  right := h.right.taken

end ParseState

namespace Parse

variable {α β : Type}

theorem rowTrivia_plain {s : ParseState} (h : s.Plain) : (rowTrivia s).1 = {} := by
  simp [rowTrivia, h.pending, h.current.row]

theorem tail_plain {s : ParseState} (h : s.Plain) : (tail s).1 = [] := by
  simp [tail, h.pending, h.current.row]

theorem inline_plain {s : ParseState} (h : s.Plain) : inline s = ([], s) := by
  rw [inline, h.current.inline]

theorem advance_plain {s : ParseState} (h : s.Plain) : (advance s).2.Plain := by
  unfold advance
  split
  · exact h
  · rename_i t rest hrest
    split
    · exact h
    · have htokens := h.tokens
      rw [hrest, List.forall_mem_cons] at htokens
      exact ⟨htokens.2, by simp [h.pending, htokens.1.row]⟩

/-- Both runs read the same word, whatever stands in front of it. -/
theorem advance_words {s t : ParseState} (hleaves : s.leaves = t.leaves)
    (herrors : s.errors = t.errors) :
    (advance s).1.asWord = (advance t).1.asWord ∧
      (advance s).2.leaves = (advance t).2.leaves ∧
      (advance s).2.errors = (advance t).2.errors := by
  have hmap := hleaves
  unfold ParseState.leaves at hmap
  unfold advance
  cases hs : s.rest <;> cases ht : t.rest <;> rw [hs, ht] at hmap
  case nil.nil => exact ⟨ParseState.asWord_eq_of_leaves hleaves, hleaves, herrors⟩
  case nil.cons => simp at hmap
  case cons.nil => simp at hmap
  case cons.cons a rest b rest' =>
    rw [List.map_cons, List.map_cons, List.cons.injEq] at hmap
    obtain ⟨hhead, hrest⟩ := hmap
    obtain ⟨hkind, htext⟩ := Leaf.mk.inj hhead
    have hbare : a.asWord = b.asWord := by rw [Token.asWord, Token.asWord, hkind, htext]
    dsimp only
    rw [hkind]
    split
    · exact ⟨hbare, hleaves, herrors⟩
    · exact ⟨hbare, hrest, herrors⟩

theorem advance_alike {s t : ParseState} (h : s.Alike t) :
    (advance s).1.asWord = (advance t).1.asWord ∧ (advance s).2.Alike (advance t).2 := by
  obtain ⟨hword, hleaves, herrors⟩ := advance_words h.leaves h.errors
  exact ⟨hword, hleaves, herrors, advance_plain h.left, advance_plain h.right⟩

/-- What follows in the second run is what follows the value of the first. -/
theorem bind_of_value {p : Parse α} {f : α → Parse β} {s t : ParseState}
    (h : (p s).1 = (p t).1) : (p >>= f) t = f (p s).1 (p t).2 := by
  rw [h]
  rfl

theorem advance_bind_of_word {f : Token → Parse β} {s t : ParseState}
    (hf : ∀ u, f u = f u.asWord) (h : (advance s).1.asWord = (advance t).1.asWord) :
    (advance >>= f) t = f (advance s).1 (advance t).2 := by
  rw [hf (advance s).1, h, ← hf]
  rfl

/-- An action that takes no comments does the same wherever the words are the same. -/
theorem Wordwise.same_words {p : Parse α} (h : Wordwise false p) {s t : ParseState}
    (hleaves : s.leaves = t.leaves) (herrors : s.errors = t.errors) :
    (p s).1 = (p t).1 ∧ (p s).2.leaves = (p t).2.leaves ∧ (p s).2.errors = (p t).2.errors := by
  induction h generalizing s t with
  | pure a => exact ⟨rfl, hleaves, herrors⟩
  | @bind α β p f _ _ ihp ihf =>
      obtain ⟨hvalue, hwords, hfound⟩ := ihp hleaves herrors
      have hrest := ihf (p s).1 hwords hfound
      rw [bind_of_value hvalue]
      exact hrest
  | look _ ih =>
      dsimp only
      rw [← hleaves]
      exact ih s.leaves hleaves herrors
  | @advance α f hword _ ih =>
      obtain ⟨hvalue, hwords, hfound⟩ := advance_words hleaves herrors
      have hrest := ih (Parse.advance s).1 hwords hfound
      rw [advance_bind_of_word hword hvalue]
      exact hrest
  | report place severity code message =>
      refine ⟨rfl, hleaves, ?_⟩
      change (if severity == .error then s.errors + 1 else s.errors) =
        if severity == .error then t.errors + 1 else t.errors
      rw [herrors]
  | giveUp a => exact ⟨rfl, hleaves, herrors⟩
  | rowTrivia htakes | inline htakes | tail htakes => exact absurd htakes Bool.false_ne_true

/-- What an action that sees only words does is the same in both runs. -/
theorem Wordwise.alike {takes : Bool} {p : Parse α} (h : Wordwise takes p) {s t : ParseState}
    (hst : s.Alike t) : (p s).1 = (p t).1 ∧ (p s).2.Alike (p t).2 := by
  induction h generalizing s t with
  | pure a => exact ⟨rfl, hst⟩
  | @bind α β p f _ _ ihp ihf =>
      obtain ⟨hvalue, hstates⟩ := ihp hst
      have hrest := ihf (p s).1 hstates
      rw [bind_of_value hvalue]
      exact hrest
  | look _ ih =>
      dsimp only
      rw [← hst.leaves]
      exact ih s.leaves hst
  | @advance α f hword _ ih =>
      obtain ⟨hvalue, hstates⟩ := advance_alike hst
      have hrest := ih (Parse.advance s).1 hstates
      rw [advance_bind_of_word hword hvalue]
      exact hrest
  | report place severity code message =>
      refine ⟨rfl, hst.leaves, ?_, ⟨hst.left.tokens, hst.left.pending⟩,
        ⟨hst.right.tokens, hst.right.pending⟩⟩
      change (if severity == .error then s.errors + 1 else s.errors) =
        if severity == .error then t.errors + 1 else t.errors
      rw [hst.errors]
  | giveUp a =>
      exact ⟨rfl, hst.leaves, hst.errors, ⟨hst.left.tokens, hst.left.pending⟩,
        ⟨hst.right.tokens, hst.right.pending⟩⟩
  | rowTrivia _ =>
      exact ⟨(rowTrivia_plain hst.left).trans (rowTrivia_plain hst.right).symm, hst.taken⟩
  | inline _ =>
      rw [inline_plain hst.left, inline_plain hst.right]
      exact ⟨rfl, hst⟩
  | tail _ => exact ⟨(tail_plain hst.left).trans (tail_plain hst.right).symm, hst.taken⟩

end Parse

end VhdlStyle
