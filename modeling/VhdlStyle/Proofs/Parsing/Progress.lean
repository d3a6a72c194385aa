import VhdlStyle.Proofs.Parsing.Actions

/-! # Parsing reaches the end of the source

The lexer ends its tokens with the only end token, and parsing keeps it there: no action puts
tokens back or takes the end token. Every round at the outermost level reads a token, so that the
bound on the rounds is never met. -/

namespace VhdlStyle

/-! ## Tokens up to the end token -/

/-- The last token is the end token, and no other one is. -/
def Token.Ended (tokens : List Token) : Prop :=
  ∃ init last, tokens = init ++ [last] ∧ last.kind = .eof ∧ ∀ t ∈ init, t.kind ≠ .eof

namespace Token

theorem ended_singleton {t : Token} (h : t.kind = .eof) : Ended [t] := ⟨[], t, rfl, h, by simp⟩

theorem Ended.cons {t : Token} {rest : List Token} (ht : t.kind ≠ .eof) (h : Ended rest) :
    Ended (t :: rest) := by
  obtain ⟨init, last, rfl, hlast, hinit⟩ := h
  refine ⟨t :: init, last, rfl, hlast, ?_⟩
  intro u hu
  rcases List.mem_cons.mp hu with rfl | hu
  · exact ht
  · exact hinit u hu

theorem Ended.ne_nil {tokens : List Token} (h : Ended tokens) : tokens ≠ [] := by
  obtain ⟨init, last, rfl, -⟩ := h
  simp

/-- Behind an end token nothing follows, and behind another one the end token does. -/
theorem Ended.of_cons {t : Token} {rest : List Token} (h : Ended (t :: rest)) :
    t.kind = .eof ∧ rest = [] ∨ t.kind ≠ .eof ∧ Ended rest := by
  obtain ⟨init, last, heq, hlast, hinit⟩ := h
  cases init with
  | nil =>
      obtain ⟨rfl, rfl⟩ := List.cons.inj heq
      exact .inl ⟨hlast, rfl⟩
  | cons u init =>
      obtain ⟨rfl, rfl⟩ := List.cons.inj heq
      refine .inr ⟨hinit t (by simp), init, last, rfl, hlast, ?_⟩
      intro v hv
      exact hinit v (List.mem_cons_of_mem t hv)

end Token

namespace ParseState

/-- The tokens still to be read end as they should. -/
def Ended (s : ParseState) : Prop := Token.Ended s.rest

theorem Ended.setLeading {s : ParseState} (h : s.Ended) (leading : List Trivia) :
    (s.setLeading leading).Ended := by
  unfold ParseState.setLeading
  split
  · exact h
  · rename_i t rest hrest
    have hcons : Token.Ended (t :: rest) := by
      rw [← hrest]
      exact h
    rcases hcons.of_cons with ⟨hkind, rfl⟩ | ⟨hkind, hended⟩
    · exact Token.ended_singleton hkind
    · exact Token.Ended.cons hkind hended

theorem setLeading_size (s : ParseState) (leading : List Trivia) :
    (s.setLeading leading).size = s.size := by
  unfold ParseState.setLeading
  split
  · rfl
  · rename_i hrest
    simp [size, hrest]

/-- At the end token, and nowhere else, one token is left. -/
theorem Ended.kind_eq_eof_iff {s : ParseState} (h : s.Ended) : s.kind = .eof ↔ s.size = 1 := by
  unfold kind current size
  cases hrest : s.rest with
  | nil => exact absurd hrest h.ne_nil
  | cons t rest =>
      have hcons : Token.Ended (t :: rest) := by
        rw [← hrest]
        exact h
      rcases hcons.of_cons with ⟨hkind, rfl⟩ | ⟨hkind, hended⟩
      · simpa using hkind
      · have hne := hended.ne_nil
        simpa [hkind] using hne

theorem Ended.size_pos {s : ParseState} (h : s.Ended) : 0 < s.size :=
  List.length_pos_iff.mpr h.ne_nil

end ParseState

/-! ## No action puts tokens back -/

namespace Parse

theorem Built.ended {takes : Bool} {α : Type} {p : Parse α} (h : Built takes p) (s : ParseState)
    (hs : s.Ended) : (p s).2.Ended := by
  induction h generalizing s with
  | pure a => exact hs
  | bind _ _ ihp ihf => exact ihf _ _ (ihp s hs)
  | look _ ih => exact ih _ s hs
  | advance =>
      unfold Parse.advance
      split
      · exact hs
      · rename_i t rest hrest
        have hcons : Token.Ended (t :: rest) := by
          rw [← hrest]
          exact hs
        split
        · exact hs
        · rename_i hkind
          rcases hcons.of_cons with ⟨heof, -⟩ | ⟨-, hended⟩
          · simp [heof] at hkind
          · exact hended
  | report | giveUp => exact hs
  | rowTrivia _ | tail _ => exact hs.setLeading []
  | inline _ =>
      unfold Parse.inline
      split
      · exact hs.setLeading _
      · exact hs

theorem Built.size_le {takes : Bool} {α : Type} {p : Parse α} (h : Built takes p) (s : ParseState) :
    (p s).2.size ≤ s.size := by
  induction h generalizing s with
  | pure a => exact Nat.le_refl _
  | bind _ _ ihp ihf => exact Nat.le_trans (ihf _ _) (ihp s)
  | look _ ih => exact ih _ s
  | advance =>
      unfold Parse.advance
      split
      · exact Nat.le_refl _
      · rename_i hrest
        split
        · exact Nat.le_refl _
        · simp [ParseState.size, hrest]
  | report | giveUp => exact Nat.le_refl _
  | rowTrivia _ | tail _ => exact Nat.le_of_eq (s.setLeading_size [])
  | inline _ =>
      unfold Parse.inline
      split
      · exact Nat.le_of_eq (s.setLeading_size _)
      · exact Nat.le_refl _

/-- Reading takes a token, unless only the end token is left. -/
theorem advance_size {s : ParseState} (hs : s.Ended) (hsize : s.size ≠ 1) :
    (advance s).2.size + 1 = s.size := by
  have hkind : s.kind ≠ .eof := fun heof => hsize (hs.kind_eq_eof_iff.mp heof)
  unfold advance
  split
  · rename_i hrest
    exact absurd hrest hs.ne_nil
  · rename_i t rest hrest
    have hcurrent : s.kind = t.kind := by simp [ParseState.kind, ParseState.current, hrest]
    rw [hcurrent] at hkind
    simp [ParseState.size, hrest, hkind]

end Parse

/-! ## The outermost level -/

namespace Parse

variable {α β : Type} {P : ParseState → Prop} {Q : α → ParseState → Prop}
  {R : β → ParseState → Prop}

/-- From a state with `P` the action ends with a result and a state that satisfy `Q`. -/
def Ensures (P : ParseState → Prop) (p : Parse α) (Q : α → ParseState → Prop) : Prop :=
  ∀ s, P s → Q (p s).1 (p s).2

theorem Ensures.bind {p : Parse α} {f : α → Parse β} (hp : Ensures P p Q)
    (hf : ∀ a, Ensures (Q a) (f a) R) : Ensures P (p >>= f) R :=
  fun s hs => hf (p s).1 (p s).2 (hp s hs)

theorem Ensures.get {f : ParseState → Parse α}
    (hf : ∀ s, P s → Ensures (· = s) (f s) Q) : Ensures P (MonadState.get >>= f) Q :=
  fun s hs => hf s hs s rfl

theorem Ensures.ite {b : Prop} [Decidable b] {p q : Parse α} (hp : b → Ensures P p Q)
    (hq : ¬b → Ensures P q Q) : Ensures P (if b then p else q) Q := by
  split
  · rename_i hb
    exact hp hb
  · rename_i hb
    exact hq hb

end Parse

namespace DesignFile

open Parse

/-- Bounded by the number of tokens, the rounds come to the end token. -/
theorem parseUnitsN_size (fuel : Nat) (context : List ContextItem) :
    Ensures (fun s => s.Ended ∧ s.size ≤ fuel + 1) (parseUnitsN fuel context)
      fun _ s => s.size = 1 := by
  induction fuel generalizing context with
  | zero =>
      intro s hs
      have hpos := hs.1.size_pos
      change s.size = 1
      omega
  | succ fuel ih =>
      unfold parseUnitsN
      refine Ensures.bind (p := isAt .eof) (Q := fun atEnd s => atEnd = (s.kind == .eof) ∧ s.Ended ∧
        s.size ≤ fuel + 2) (fun s hs => ⟨rfl, hs⟩) fun atEnd => .ite ?_ ?_
      · rintro rfl s ⟨hkind, hended, -⟩
        exact hended.kind_eq_eof_iff.mp (by simpa using hkind.symm)
      · intro hmore
        refine .get fun before hbefore => ?_
        have hsize : before.size ≠ 1 := by
          intro hone
          have hkind := hbefore.2.1.kind_eq_eof_iff.mpr hone
          simp [hbefore.1, hkind] at hmore
        have hbuilt : Built true (parseStep context) := inferInstance
        refine Ensures.bind (Q := fun _ s => s.Ended ∧ s.size ≤ before.size) ?_ fun step => ?_
        · rintro s rfl
          exact ⟨hbuilt.ended s hbefore.2.1, hbuilt.size_le s⟩
        · refine .get fun after hafter => ?_
          extract_lets -underBinder next
          have hnext (u : PUnit) :
              Ensures (fun s => s.Ended ∧ s.size < before.size) (next u) fun _ s => s.size = 1 := by
            refine Ensures.bind (fun s hs => ih step.2 s ⟨hs.1, ?_⟩) fun rest s hs => hs
            have hbound := hbefore.2.2
            omega
          clear_value next
          refine .ite ?_ ?_
          · intro hsame
            refine Ensures.bind ?_ hnext
            rintro s rfl
            have heq : s.size = before.size := by simpa using hsame
            have hread := advance_size hafter.1 (by rw [heq]; exact hsize)
            have hskip : Built true skip := inferInstance
            refine ⟨hskip.ended s hafter.1, ?_⟩
            change (advance s).2.size < before.size
            omega
          · rintro hless s rfl
            have hne : s.size ≠ before.size := by simpa using hless
            exact hnext _ s ⟨hafter.1, by omega⟩

/-- Taking the comments at the end token leaves it bare. -/
theorem tail_rest {s : ParseState} (hsize : s.size = 1) :
    ∃ last, last.leading = [] ∧ (Parse.tail s).2.rest = [last] ∧ (Parse.tail s).2.pending = [] := by
  obtain ⟨token, hrest⟩ := List.length_eq_one_iff.mp hsize
  refine ⟨{ token with leading := [] }, rfl, ?_, rfl⟩
  simp [Parse.tail, ParseState.setLeading, hrest]

/-- After parsing only the end token is left, without trivia, and nothing is pending. -/
theorem parseTokens_rest : Ensures ParseState.Ended parseTokens fun _ s =>
    ∃ last, last.leading = [] ∧ s.rest = [last] ∧ s.pending = [] := by
  unfold parseTokens
  refine Ensures.bind (Q := fun _ s => s.size = 1) ?_ fun parts => ?_
  · intro s hs
    exact parseUnitsN_size s.size [] s ⟨hs, Nat.le_succ _⟩
  · have hlast (u : PUnit) : Ensures (fun s => s.size = 1)
        (do return (⟨parts.1, ← Parse.tail⟩ : DesignFile)) fun _ s =>
          ∃ last, last.leading = [] ∧ s.rest = [last] ∧ s.pending = [] :=
      .bind (fun s hs => tail_rest hs) fun _ s hs => hs
    refine .ite (fun _ => .bind (Q := fun _ s => s.size = 1) ?_ hlast) fun _ => hlast ⟨⟩
    intro s hs
    exact hs

end DesignFile

/-! ## The lexer ends its tokens -/

namespace Lexer

theorem triviaN_length (fuel : Nat) (lx : Lexer) :
    (triviaN fuel lx).2.2.rest.length ≤ lx.rest.length := by
  induction fuel generalizing lx with
  | zero => exact Nat.le_refl _
  | succ fuel ih =>
      unfold triviaN
      split
      · exact Nat.le_refl _
      · split
        · exact Nat.le_refl _
        · refine Nat.le_trans (ih _) ?_
          simp [skip]

theorem triviaN_look (fuel : Nat) (lx : Lexer) : (triviaN fuel lx).2.2.look = lx.look := by
  induction fuel generalizing lx with
  | zero => rfl
  | succ fuel ih =>
      unfold triviaN
      split
      · rfl
      · split
        · rfl
        · exact ih _

theorem scanToken_look (lx : Lexer) : lx.scanToken.2.2.look = lx.look := by
  have htrivia := triviaN_look lx.rest.length lx
  unfold scanToken
  dsimp only [trivia]
  split <;> exact htrivia

/-- A token that is not the end token takes a byte. -/
theorem scanToken_length (lx : Lexer) (hkind : lx.scanToken.1.kind ≠ .eof) :
    lx.scanToken.2.2.rest.length < lx.rest.length := by
  have htrivia := triviaN_length lx.rest.length lx
  rcases htr : triviaN lx.rest.length lx with ⟨leading, faults, after⟩
  simp only [htr] at htrivia
  simp only [scanToken, trivia, htr] at hkind ⊢
  cases hrest : after.rest with
  | nil => simp [hrest] at hkind
  | cons first rest =>
      have hlength := congrArg List.length hrest
      simp only [List.length_cons] at hlength
      simp only [skip, hrest, List.length_drop, List.length_cons]
      omega

theorem allN_ended (fuel : Nat) {lx : Lexer} (hlook : lx.look = none)
    (hfuel : lx.rest.length < fuel) : Token.Ended (allN fuel lx).1 := by
  induction fuel generalizing lx with
  | zero => exact absurd hfuel (Nat.not_lt_zero _)
  | succ fuel ih =>
      have hnext : lx.next = lx.scanToken := by rw [next, hlook]
      rw [allN, hnext]
      by_cases hkind : lx.scanToken.1.kind = .eof
      · simp only [hkind, beq_self_eq_true, if_true]
        exact Token.ended_singleton hkind
      · have hlength := lx.scanToken_length hkind
        have hrest := ih (lx.scanToken_look.trans hlook) (by omega)
        simp only [beq_iff_eq, hkind, if_false]
        exact Token.Ended.cons hkind hrest

end Lexer

theorem SourceFile.tokens_ended (f : SourceFile) : Token.Ended f.tokens.1 := by
  have hfuel : (Lexer.ofFile f).rest.length < (Lexer.ofFile f).rest.length + 2 := by omega
  exact Lexer.allN_ended _ rfl hfuel

end VhdlStyle
