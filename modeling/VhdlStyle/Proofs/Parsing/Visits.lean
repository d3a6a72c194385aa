import VhdlStyle.Proofs.Parsing.Termination

/-! # The run of the parser over a token list

The places at which the parser looks at its tokens lie within the list and never move back, no loop
gives up, and the run ends at the end token. -/

namespace VhdlStyle

namespace Parse

/-- The states in which a run takes its primitive steps, in their order. -/
inductive Visits : {α : Type} → Parse α → ParseState → List ParseState → Prop where
  | pure {α : Type} (a : α) (s : ParseState) : Visits (pure a) s []
  | bind {α β : Type} {p : Parse α} {f : α → Parse β} {s : ParseState} {xs ys : List ParseState} :
      Visits p s xs → Visits (f (p s).1) (p s).2 ys → Visits (p >>= f) s (xs ++ ys)
  | look {α : Type} {f : ParseView → Parse α} {s : ParseState} {xs : List ParseState} :
      Visits (f s.view) s xs → Visits (fun s => f s.view s) s (s :: xs)
  | advance (s : ParseState) : Visits advance s [s]
  | report (severity : Severity) (code : Code) (span : Span) (message : Bytes) (s : ParseState) :
      Visits (report severity code span message) s [s]
  | giveUp {α : Type} (a : α) (s : ParseState) : Visits (giveUp a) s [s]
  | rowTrivia (s : ParseState) : Visits rowTrivia s [s]
  | inline (s : ParseState) : Visits inline s [s]
  | tail (s : ParseState) : Visits tail s [s]

/-- Every action passes through some states. -/
theorem Built.visits {takes : Bool} {α : Type} {p : Parse α} (h : Built takes p) (s : ParseState) :
    ∃ visited, Visits p s visited := by
  induction h generalizing s with
  | pure a => exact ⟨[], .pure a s⟩
  | bind _ _ ihp ihf =>
      obtain ⟨xs, hxs⟩ := ihp s
      obtain ⟨ys, hys⟩ := ihf _ _
      exact ⟨xs ++ ys, .bind hxs hys⟩
  | look _ ih =>
      obtain ⟨xs, hxs⟩ := ih _ s
      exact ⟨s :: xs, .look hxs⟩
  | advance => exact ⟨[s], .advance s⟩
  | report place severity code message =>
      exact ⟨[s, s], .look (f := fun v =>
        Parse.report severity code (place.span (ParseState.withView default v)) message)
        (.report severity code _ message s)⟩
  | giveUp a => exact ⟨[s], .giveUp a s⟩
  | rowTrivia _ => exact ⟨[s], .rowTrivia s⟩
  | inline _ => exact ⟨[s], .inline s⟩
  | tail _ => exact ⟨[s], .tail s⟩

end Parse

/-! ## Places in a token list -/

/-- A token without its trivia, which the parser takes while it reads. -/
def Token.bare (t : Token) : Token := { t with leading := [] }

namespace ParseState

/-- The index of the current token in the list that is parsed. -/
def position (tokens : List Token) (s : ParseState) : Nat := tokens.length - s.size

/-- The state stands at a token of the list, and what is left to read is the list from there on. -/
structure Inside (tokens : List Token) (s : ParseState) : Prop where
  position_lt : s.position tokens < tokens.length
  rest_eq : s.rest.map Token.bare = (tokens.map Token.bare).drop (s.position tokens)

theorem setLeading_bare (s : ParseState) (leading : List Trivia) :
    (s.setLeading leading).rest.map Token.bare = s.rest.map Token.bare := by
  rw [setLeading]
  split
  · rfl
  · rename_i hrest
    simp [hrest, Token.bare]

/-- A later state: its tokens are the last ones of an earlier one. -/
def Follows (s t : ParseState) : Prop := t.rest.map Token.bare <:+ s.rest.map Token.bare

theorem Follows.refl (s : ParseState) : s.Follows s := List.suffix_refl _

theorem Follows.trans {s t u : ParseState} (h : s.Follows t) (h' : t.Follows u) : s.Follows u :=
  List.IsSuffix.trans h' h

theorem Follows.size_le {s t : ParseState} (h : s.Follows t) : t.size ≤ s.size := by
  have hle := List.IsSuffix.length_le h
  simpa [size] using hle

/-- A later state that has a token left stands in the list. -/
theorem Follows.inside {s t : ParseState} (h : s.Follows t) (hpos : 0 < t.size) :
    t.Inside s.rest := by
  have hle : t.size ≤ s.rest.length := h.size_le
  refine ⟨?_, ?_⟩
  · rw [position]
    omega
  · have hdrop := List.suffix_iff_eq_drop.mp h
    simpa [position, size] using hdrop

end ParseState

namespace Parse

theorem advance_follows (s : ParseState) : s.Follows (advance s).2 := by
  rw [ParseState.Follows, Parse.advance]
  split
  · exact List.suffix_rfl
  · rename_i t rest hrest
    split
    · exact List.suffix_rfl
    · rw [hrest, List.map_cons]
      exact List.suffix_cons _ _

theorem setLeading_follows (s : ParseState) (leading : List Trivia) :
    s.Follows (s.setLeading leading) := by
  simp only [ParseState.Follows, ParseState.setLeading_bare, List.suffix_rfl]

theorem inline_follows (s : ParseState) : s.Follows (inline s).2 := by
  rw [Parse.inline]
  split
  · exact setLeading_follows s _
  · exact .refl s

/-- The states follow one another, from the first state to the final one. -/
structure Passes (first final : ParseState) (visited : List ParseState) : Prop where
  last : first.Follows final
  between : ∀ s ∈ visited, first.Follows s ∧ s.Follows final
  ordered : visited.Pairwise ParseState.Follows

theorem Passes.single {s final : ParseState} (h : s.Follows final) : Passes s final [s] := by
  refine ⟨h, ?_, List.pairwise_singleton _ _⟩
  intro t ht
  rw [List.mem_singleton.mp ht]
  exact ⟨.refl s, h⟩

theorem Passes.append {s t u : ParseState} {xs ys : List ParseState} (hxs : Passes s t xs)
    (hys : Passes t u ys) : Passes s u (xs ++ ys) := by
  refine ⟨hxs.last.trans hys.last, ?_, ?_⟩
  · intro v hv
    rcases List.mem_append.mp hv with hv | hv
    · exact ⟨(hxs.between v hv).1, (hxs.between v hv).2.trans hys.last⟩
    · exact ⟨hxs.last.trans (hys.between v hv).1, (hys.between v hv).2⟩
  · refine List.pairwise_append.mpr ⟨hxs.ordered, hys.ordered, ?_⟩
    intro x hx y hy
    exact (hxs.between x hx).2.trans (hys.between y hy).1

/-- A run passes from state to state without going back. -/
theorem Visits.passes {α : Type} {p : Parse α} {s : ParseState} {visited : List ParseState}
    (h : Visits p s visited) : Passes s (p s).2 visited := by
  induction h with
  | pure a s => exact ⟨.refl s, by simp, List.Pairwise.nil⟩
  | bind _ _ ihp ihf => exact ihp.append ihf
  | @look α f s xs _ ih => exact (Passes.single (.refl s)).append ih
  | advance s => exact .single (advance_follows s)
  | report severity code span message s => exact .single (.refl s)
  | giveUp a s => exact .single (.refl s)
  | rowTrivia s => exact .single (setLeading_follows s [])
  | inline s => exact .single (inline_follows s)
  | tail s => exact .single (setLeading_follows s [])

/-- Giving up is never forgotten. -/
theorem Visits.kept {α : Type} {p : Parse α} {s : ParseState} {visited : List ParseState}
    (h : Visits p s visited) (hfinal : (p s).2.gaveUp = false) :
    s.gaveUp = false ∧ ∀ t ∈ visited, t.gaveUp = false := by
  have hsingle {s : ParseState} (hs : s.gaveUp = false) :
      s.gaveUp = false ∧ ∀ t ∈ [s], t.gaveUp = false := by simp [hs]
  induction h with
  | pure a s => exact ⟨hfinal, by simp⟩
  | bind _ _ ihp ihf =>
      obtain ⟨hmiddle, hys⟩ := ihf hfinal
      obtain ⟨hfirst, hxs⟩ := ihp hmiddle
      refine ⟨hfirst, fun t ht => ?_⟩
      rcases List.mem_append.mp ht with ht | ht
      · exact hxs t ht
      · exact hys t ht
  | look _ ih =>
      obtain ⟨hfirst, hxs⟩ := ih hfinal
      refine ⟨hfirst, fun t ht => ?_⟩
      rcases List.mem_cons.mp ht with rfl | ht
      · exact hfirst
      · exact hxs t ht
  | advance s => exact hsingle ((advance_gaveUp s).symm.trans hfinal)
  | report severity code span message s => exact hsingle hfinal
  | giveUp a s => exact absurd hfinal Bool.true_eq_false.mp
  | rowTrivia s | tail s =>
      exact hsingle ((ParseState.Live.setLeading_gaveUp s []).symm.trans hfinal)
  | inline s =>
      rw [Parse.inline] at hfinal
      split at hfinal
      · exact hsingle ((ParseState.Live.setLeading_gaveUp s _).symm.trans hfinal)
      · exact hsingle hfinal

end Parse

/-! ## Whole sources -/

/-- The run of the parser over a token list: it ends at the end token, all its looks and moves are
at tokens of the list, and it neither goes back nor stops a loop at its bound. -/
structure Token.ParsedToEnd (tokens : List Token) (first : ParseState) : Prop where
  kept : (DesignFile.parseTokens first).2.gaveUp = false
  at_end : (DesignFile.parseTokens first).2.kind = .eof
  position_eq : (DesignFile.parseTokens first).2.position tokens = tokens.length - 1
  visits : ∃ visited, Parse.Visits DesignFile.parseTokens first visited
  inside : ∀ visited, Parse.Visits DesignFile.parseTokens first visited →
    ∀ s ∈ visited, s.Inside tokens ∧ s.gaveUp = false
  forward : ∀ visited, Parse.Visits DesignFile.parseTokens first visited →
    (visited.map (ParseState.position tokens)).Pairwise (· ≤ ·)

/-- On every token list with one end token, at its end, parsing ends there without leaving the list;
the lexer gives such a list for every source. -/
theorem parse_reaches_end :
    (∀ f : SourceFile, Token.Ended f.tokens.1) ∧
      ∀ (tokens : List Token) (maxErrors : Nat) (bag : Bag), Token.Ended tokens →
        Token.ParsedToEnd tokens { rest := tokens, maxErrors, bag } := by
  refine ⟨SourceFile.tokens_ended, ?_⟩
  intro tokens maxErrors bag hended
  let first : ParseState := { rest := tokens, maxErrors, bag }
  have hlive : first.Live first.size := ⟨hended, Nat.le_refl _, rfl⟩
  have hfinal := DesignFile.finishes_parseTokens.run first hlive
  obtain ⟨last, -, hrest, -⟩ := DesignFile.parseTokens_rest first hended
  have hsize : (DesignFile.parseTokens first).2.size = 1 := by
    rw [ParseState.size, hrest, List.length_singleton]
  refine ⟨hfinal.kept, hfinal.ended.kind_eq_eof_iff.mpr hsize, ?_,
    DesignFile.built_parseTokens.visits first, ?_, ?_⟩
  · rw [ParseState.position, hsize]
  · intro visited hvisits s hs
    have hlater : 0 < s.size :=
      Nat.lt_of_lt_of_le (hsize.symm ▸ Nat.zero_lt_one) (hvisits.passes.between s hs).2.size_le
    exact ⟨(hvisits.passes.between s hs).1.inside hlater,
      (hvisits.kept hfinal.kept).2 s hs⟩
  · intro visited hvisits
    refine List.Pairwise.map _ ?_ hvisits.passes.ordered
    intro s t h
    have hle := h.size_le
    simp only [ParseState.position]
    omega

/-- Words out of place, an open parenthesis and no unit at all: the whole list is read. -/
theorem parse_reaches_end_out_of_place :
    let words : List Token := [⟨.kwEntity, ⟨0, 0, 6⟩, "entity", []⟩,
      ⟨.kwElsif, ⟨0, 6, 11⟩, "elsif", []⟩, ⟨.lParen, ⟨0, 11, 12⟩, "(", []⟩,
      ⟨.eof, ⟨0, 12, 12⟩, [], []⟩]
    Token.Ended words ∧
      Token.ParsedToEnd words { rest := words, maxErrors := 1, bag := default } := by
  intro words
  have hended : Token.Ended words :=
    ⟨words.take 3, words.getLast (by decide), by decide, rfl, by decide⟩
  exact ⟨hended, parse_reaches_end.2 words 1 default hended⟩

end VhdlStyle
