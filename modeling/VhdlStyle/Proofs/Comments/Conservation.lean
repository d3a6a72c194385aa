import VhdlStyle.Proofs.Comments.Collected
import VhdlStyle.Proofs.Parsing.Actions

/-! # Parsing conserves comments

While a source is parsed, its comments are in three places: in front of the tokens still to be
read, among the pending ones, and in what has been read. `Moves n p m` says that an action that is
handed the comments `n` makes none up, and that it loses none if it reports no error: those of its
result `m` and of the state it leaves are those of `n` and of the state it found. -/

namespace VhdlStyle

/-! ## The comments of a parsing state -/

namespace ParseState

/-- The comments still to be attached. -/
def comments (s : ParseState) : Multiset Bytes :=
  Comment.texts s.pending + Token.comments s.rest

/-- No line comment still to be read is blank: the empty text stands for a missing comment. -/
def Worded (s : ParseState) : Prop :=
  ∀ t ∈ s.rest, ∀ tr ∈ t.leading, tr.kind = .lineComment → Comment.trim tr.text ≠ []

theorem Worded.of_rest {s t : ParseState} (h : s.Worded) (hrest : t.rest ⊆ s.rest) : t.Worded :=
  fun token htoken => h token (hrest htoken)

theorem Worded.setLeading {s : ParseState} (h : s.Worded) (leading : List Trivia)
    (hsub : leading ⊆ s.current.leading) : (s.setLeading leading).Worded := by
  unfold ParseState.setLeading
  split
  · exact h
  · rename_i t rest hrest
    have hcurrent : s.current = t := by simp [current, hrest]
    intro token htoken tr htr
    rcases List.mem_cons.mp htoken with rfl | htoken
    · refine h t (by simp [hrest]) tr ?_
      rw [← hcurrent]
      exact hsub htr
    · exact h token (by simp [hrest, htoken]) tr htr

/-- Changing the comments in front of the current token changes those of the state. -/
theorem comments_setLeading (s : ParseState) (leading : List Trivia) (hrest : s.rest ≠ []) :
    (s.setLeading leading).comments + Trivia.comments s.current.leading =
      s.comments + Trivia.comments leading := by
  unfold ParseState.setLeading
  split
  · contradiction
  · rename_i t rest hcons
    simp only [comments, current, hcons, List.headD_cons, Token.comments_cons]
    abel

theorem comments_takeLeading (s : ParseState) :
    (s.setLeading []).comments + Trivia.comments s.current.leading = s.comments := by
  cases hrest : s.rest with
  | nil => simp [setLeading, current, hrest, Trivia.comments]
  | cons t rest =>
      have hmove := s.comments_setLeading [] (by simp [hrest])
      simpa [Trivia.comments] using hmove

@[simp] theorem setLeading_pending (s : ParseState) (leading : List Trivia) :
    (s.setLeading leading).pending = s.pending := by
  unfold setLeading
  split <;> rfl

/-- Handing on the pending comments takes them out of the state. -/
theorem comments_clearPending (s : ParseState) :
    ({ s with pending := [] } : ParseState).comments + Comment.texts s.pending = s.comments := by
  simp only [comments, Comment.texts_nil, zero_add]
  exact add_comm _ _

end ParseState

namespace Parse

/-- Handed the comments `n`, the action makes no comment up: what is in its result and what it
leaves in the state was there. -/
structure Within {α : Type} (n : Multiset Bytes) (p : Parse α) (m : α → Multiset Bytes) : Prop where
  worded : ∀ s : ParseState, s.Worded → (p s).2.Worded
  errors : ∀ s : ParseState, s.errors ≤ (p s).2.errors
  bounded : ∀ s : ParseState, m (p s).1 + (p s).2.comments ≤ n + s.comments

/-- The action keeps every comment too, unless it reports an error. -/
structure Moves {α : Type} (n : Multiset Bytes) (p : Parse α) (m : α → Multiset Bytes) : Prop
    extends Within n p m where
  kept : ∀ s : ParseState, s.Worded → (p s).2.errors = s.errors →
    n + s.comments = m (p s).1 + (p s).2.comments

section

variable {α β : Type} {n : Multiset Bytes} {m : α → Multiset Bytes} {k : β → Multiset Bytes}

namespace Within

/-- What a value does not take is lost. -/
theorem pure {a : α} (h : m a ≤ n) : Within n (pure a) m where
  worded _ hs := hs
  errors _ := le_refl _
  bounded s := add_le_add_left h s.comments

theorem bind {p : Parse α} {f : α → Parse β} (hp : Within n p m)
    (hf : ∀ a, Within (m a) (f a) k) : Within n (p >>= f) k where
  worded s hs := (hf (p s).1).worded (p s).2 (hp.worded s hs)
  errors s := (hp.errors s).trans ((hf (p s).1).errors (p s).2)
  bounded s := ((hf (p s).1).bounded (p s).2).trans (hp.bounded s)

theorem frame {p : Parse α} (hp : Within n p m) (r : Multiset Bytes) :
    Within (r + n) p fun a => r + m a where
  worded := hp.worded
  errors := hp.errors
  bounded s := by
    rw [add_assoc, add_assoc]
    exact add_le_add_right (hp.bounded s) r

theorem call {p : Parse α} {f : α → Parse β} (hp : Within 0 p m)
    (hf : ∀ a, Within (n + m a) (f a) k) : Within n (p >>= f) k := by
  have hframe := hp.frame n
  rw [add_zero] at hframe
  exact hframe.bind hf

end Within

namespace Moves

theorem pure {a : α} (h : n = m a) : Moves n (pure a) m where
  toWithin := .pure h.ge
  kept s _ _ := congrArg (· + s.comments) h

theorem giveUp {a : α} (h : n = m a) : Moves n (giveUp a) m where
  worded _ hs := hs
  errors _ := le_refl _
  bounded s := add_le_add_left h.ge s.comments
  kept s _ _ := congrArg (· + s.comments) h

theorem bind {p : Parse α} {f : α → Parse β} (hp : Moves n p m)
    (hf : ∀ a, Moves (m a) (f a) k) : Moves n (p >>= f) k where
  toWithin := hp.toWithin.bind fun a => (hf a).toWithin
  kept s hs herrors := by
    -- errors only grow, so neither half has reported any
    have hle := hp.errors s
    have hle' := (hf (p s).1).errors (p s).2
    have herrors' : (f (p s).1 (p s).2).2.errors = s.errors := herrors
    have hfirst := hp.kept s hs (by omega)
    have hsecond := (hf (p s).1).kept (p s).2 (hp.worded s hs) (by omega)
    exact hfirst.trans hsecond

/-- A value that is known passes its comments on. -/
theorem given {a : α} {f : α → Parse β} (hf : Moves n (f a) k) : Moves n (Pure.pure a >>= f) k := hf

theorem frame {p : Parse α} (hp : Moves n p m) (r : Multiset Bytes) :
    Moves (r + n) p fun a => r + m a where
  toWithin := hp.toWithin.frame r
  kept s hs herrors := by rw [add_assoc, hp.kept s hs herrors, add_assoc]

theorem map {p : Parse α} {g : α → β} (hp : Moves n p m) (h : ∀ a, m a = k (g a)) :
    Moves n (g <$> p) k := hp.bind fun a => .pure (h a)

/-- An action that is handed nothing, before one that is handed its comments too. -/
theorem call {p : Parse α} {f : α → Parse β} (hp : Moves 0 p m)
    (hf : ∀ a, Moves (n + m a) (f a) k) : Moves n (p >>= f) k := by
  have hframe := hp.frame n
  rw [add_zero] at hframe
  exact hframe.bind hf

end Moves

/-! ## Primitive actions -/

/-- An action that takes no comments leaves all of them in the state. -/
theorem Built.comments_eq {takes : Bool} {p : Parse α} (h : Built takes p) (htakes : takes = false)
    (s : ParseState) : (p s).2.comments = s.comments := by
  induction h generalizing s with
  | pure a => rfl
  | bind _ _ ihp ihf => exact (ihf _ _).trans (ihp s)
  | look _ ih => exact ih _ s
  | advance =>
      unfold Parse.advance
      split
      · rfl
      · rename_i t rest hrest
        split
        · rfl
        · simp only [ParseState.comments, hrest, Token.comments_cons, Comment.texts_append,
            Comment.texts_ofTrivia, add_assoc]
  | report | giveUp => rfl
  | rowTrivia htrue | inline htrue | tail htrue => simp [htakes] at htrue

/-- The line comment at the front leaves the trivia behind it. -/
theorem inlineOf_subset {trivia rest : List Trivia} {text : Bytes}
    (h : inlineOf trivia = some (text, rest)) : rest ⊆ trivia := by
  induction trivia with
  | nil => simp [inlineOf] at h
  | cons t trivia ih =>
      unfold inlineOf at h
      split at h
      · exact List.Subset.trans (ih h) (List.subset_cons_self t trivia)
      · obtain ⟨-, rfl⟩ := Prod.mk.inj (Option.some.inj h)
        exact List.subset_cons_self t trivia
      · simp at h

theorem Built.worded {takes : Bool} {p : Parse α} (h : Built takes p) (s : ParseState)
    (hs : s.Worded) : (p s).2.Worded := by
  induction h generalizing s with
  | pure a => exact hs
  | bind _ _ ihp ihf => exact ihf _ _ (ihp s hs)
  | look _ ih => exact ih _ s hs
  | advance =>
      unfold Parse.advance
      split
      · exact hs
      · rename_i t rest hrest
        split
        · exact hs
        · exact hs.of_rest (by simp [hrest])
  | report | giveUp => exact hs
  | rowTrivia _ | tail _ => exact hs.setLeading [] (List.nil_subset _)
  | inline _ =>
      unfold Parse.inline
      split
      · rename_i hinline
        exact hs.setLeading _ (inlineOf_subset hinline)
      · exact hs

namespace Within

theorem still {p : Parse α} (hp : Built false p) : Within n p fun _ => n where
  worded := hp.worded
  errors := hp.errors_le
  bounded s := by rw [hp.comments_eq rfl s]

theorem next {p : Parse α} {f : α → Parse β} [hp : Built false p] (hf : ∀ a, Within n (f a) k) :
    Within n (p >>= f) k := (still hp).bind hf

end Within

namespace Moves

/-- An action that takes no comments does not touch those it is handed. -/
theorem still {p : Parse α} (hp : Built false p) : Moves n p fun _ => n where
  toWithin := .still hp
  kept s _ _ := by rw [hp.comments_eq rfl s]

/-- First an action that takes no comments. -/
theorem next {p : Parse α} {f : α → Parse β} [hp : Built false p] (hf : ∀ a, Moves n (f a) k) :
    Moves n (p >>= f) k := (still hp).bind hf

theorem ite {b : Prop} [Decidable b] {p q : Parse α} (hp : Moves n p m) (hq : Moves n q m) :
    Moves n (if b then p else q) m := by
  split
  · exact hp
  · exact hq

/-- After an action that is sure to report an error comments may be lost. -/
theorem fails {p : Parse α} {f : α → Parse β} [hp : Built false p]
    (hfail : ∀ s, s.errors < (p s).2.errors) (hf : ∀ a, Within n (f a) k) :
    Moves n (p >>= f) k where
  toWithin := .next hf
  kept s _ herrors := by
    have hle := (hf (p s).1).errors (p s).2
    have hlt := hfail s
    have herrors' : (f (p s).1 (p s).2).2.errors = s.errors := herrors
    omega

end Moves

theorem moves_fault {f : Unit → Parse β} {code : Code} {message : Bytes}
    (hf : ∀ u, Within n (f u) k) : Moves n (fault code message >>= f) k :=
  .fails (fault_errors code message) hf

theorem moves_faultGot {f : Unit → Parse β} {code : Code} {expected : Bytes}
    (hf : ∀ u, Within n (f u) k) : Moves n (faultGot code expected >>= f) k :=
  .fails (fun s => Nat.lt_succ_self s.errors) hf

/-- All comments above the current row are taken. -/
theorem rowTrivia_comments (s : ParseState) :
    0 + s.comments = (rowTrivia s).1.above + (rowTrivia s).2.comments := by
  have hlead := s.comments_takeLeading
  have hpending := (s.setLeading []).comments_clearPending
  rw [ParseState.setLeading_pending] at hpending
  change 0 + s.comments = Comment.texts (s.pending ++ (Comment.ofTrivia s.current.leading).1) +
    ({ s.setLeading [] with pending := [] } : ParseState).comments
  rw [Comment.texts_append, Comment.texts_ofTrivia, ← hlead, ← hpending]
  abel

theorem moves_rowTrivia : Moves 0 rowTrivia RowTrivia.above where
  worded := built_rowTrivia.worded
  errors := built_rowTrivia.errors_le
  bounded s := (rowTrivia_comments s).ge
  kept s _ _ := rowTrivia_comments s

theorem moves_tail : Moves 0 tail Comment.texts where
  worded := built_tail.worded
  errors := built_tail.errors_le
  bounded := moves_rowTrivia.bounded
  kept := moves_rowTrivia.kept

/-- What is left of trivia, and the comment taken from its front, are all its comments. -/
theorem inlineOf_comments {trivia rest : List Trivia} {text : Bytes}
    (h : inlineOf trivia = some (text, rest)) :
    Trivia.comments trivia = {text} + Trivia.comments rest := by
  induction trivia with
  | nil => simp [inlineOf] at h
  | cons t trivia ih =>
      unfold inlineOf at h
      split at h
      · rename_i hkind
        have hcomment : t.isComment = false := by rw [Trivia.isComment, hkind]; rfl
        rw [← ih h]
        simp [Trivia.comments, hcomment]
      · rename_i hkind
        have hcomment : t.isComment = true := by rw [Trivia.isComment, hkind]; rfl
        obtain ⟨rfl, rfl⟩ := Prod.mk.inj (Option.some.inj h)
        simp [Trivia.comments, hcomment]
      · simp at h

/-- The comment behind a row is taken out of the state. -/
theorem setLeading_of_inlineOf {s : ParseState} {rest : List Trivia} {text : Bytes}
    (h : inlineOf s.current.leading = some (text, rest)) :
    {text} + (s.setLeading rest).comments = s.comments := by
  have hrest : s.rest ≠ [] := by
    intro hnil
    simp [ParseState.current, hnil, inlineOf] at h
  have hmove := s.comments_setLeading rest hrest
  rw [inlineOf_comments h, ← add_assoc] at hmove
  rw [add_comm]
  exact add_right_cancel hmove

theorem inlineOf_text {trivia rest : List Trivia} {text : Bytes}
    (h : inlineOf trivia = some (text, rest)) :
    ∃ t ∈ trivia, t.kind = .lineComment ∧ text = Comment.trim t.text := by
  induction trivia with
  | nil => simp [inlineOf] at h
  | cons t trivia ih =>
      unfold inlineOf at h
      split at h
      · obtain ⟨u, hu, hkind, htext⟩ := ih h
        exact ⟨u, List.mem_cons_of_mem t hu, hkind, htext⟩
      · rename_i hkind
        obtain ⟨rfl, rfl⟩ := Prod.mk.inj (Option.some.inj h)
        exact ⟨t, List.mem_cons_self, hkind, rfl⟩
      · simp at h

theorem moves_inline : Moves 0 inline RowTrivia.behind where
  worded := built_inline.worded
  errors := built_inline.errors_le
  bounded s := by
    unfold inline
    split
    · rename_i text rest hinline
      rw [zero_add, ← setLeading_of_inlineOf hinline]
      refine add_le_add_left ?_ _
      unfold RowTrivia.behind
      split
      · exact Multiset.zero_le _
      · exact le_refl _
    · simp [RowTrivia.behind]
  kept s hs _ := by
    unfold inline
    split
    · rename_i text rest hinline
      have htext : text ≠ [] := by
        obtain ⟨t, ht, hkind, rfl⟩ := inlineOf_text hinline
        refine hs s.current ?_ t ht hkind
        cases hcons : s.rest with
        | nil => simp [ParseState.current, hcons] at ht
        | cons u us => simp [ParseState.current, hcons]
      simp only [RowTrivia.behind, List.isEmpty_iff, htext, if_false, zero_add]
      rw [setLeading_of_inlineOf hinline]
    · simp [RowTrivia.behind]

theorem moves_withInline (t : RowTrivia) : Moves t.above (withInline t) RowTrivia.comments := by
  refine .call moves_inline fun text => .pure ?_
  rfl

/-- Whatever else is handed on, the comment behind a row joins it. -/
theorem Moves.behind {t : RowTrivia} {f : RowTrivia → Parse β}
    (hf : ∀ text, Moves (n + RowTrivia.behind text) (f { t with inline := text }) k) :
    Moves n (withInline t >>= f) k :=
  Moves.call (p := inline) (f := fun text => f { t with inline := text }) moves_inline hf

/-! ## Repetition -/

/-- An action may depend on the state. -/
theorem Moves.look {f : ParseState → Parse α} (hf : ∀ s, Moves n (f s) m) :
    Moves n (fun s => f s s) m where
  worded s := (hf s).worded s
  errors s := (hf s).errors s
  bounded s := (hf s).bounded s
  kept s := (hf s).kept s

theorem Moves.get {f : ParseState → Parse α} (hf : ∀ s, Moves n (f s) m) :
    Moves n (MonadState.get >>= f) m := Moves.look (f := f) hf

/-- An action may depend on how many tokens are left. -/
theorem Moves.sized {f : Nat → Parse α} (hf : ∀ size, Moves n (f size) m) :
    Moves n (fun s => f s.size s) m := .look fun s => hf s.size

theorem moves_manyN {stops : List Kind} {item : Parse (Option α)}
    (hitem : Moves 0 item (anyComments m)) (fuel : Nat) :
    Moves 0 (manyN stops item fuel) (allComments m) := by
  induction fuel with
  | zero =>
      unfold manyN
      exact .giveUp rfl
  | succ fuel ih =>
      unfold manyN
      refine .next fun atStop => .next fun atEnd => ?_
      split
      · exact .pure rfl
      · refine .get fun before => hitem.bind fun x => .get fun after => ?_
        extract_lets -underBinder next
        have hnext : ∀ u, Moves (anyComments m x) (next u) (allComments m) := by
          intro u
          refine .call ih fun xs => .pure ?_
          cases x <;> simp [anyComments]
        clear_value next
        split
        · exact .next hnext
        · exact hnext ()

theorem moves_many {stops : List Kind} {item : Parse (Option α)}
    (hitem : Moves 0 item (anyComments m)) : Moves 0 (many stops item) (allComments m) :=
  .sized (moves_manyN hitem)

theorem moves_afterEachN {sep : Kind} {item : Parse α} (hitem : Moves 0 item m) (fuel : Nat) :
    Moves 0 (afterEachN sep item fuel) (allComments m) := by
  induction fuel with
  | zero =>
      unfold afterEachN
      exact .giveUp rfl
  | succ fuel ih =>
      unfold afterEachN
      refine .next fun more => ?_
      split
      · exact .pure rfl
      · refine hitem.bind fun x => .call ih fun xs => .pure ?_
        simp

/-- Rows keep their comments when reading a row keeps those above it, and putting the comment
behind a row into it adds that comment. -/
theorem moves_rowsN {sep : Kind} {row : RowTrivia → Parse α} {setInline : α → Bytes → α}
    {above : α → Multiset Bytes} (hrow : ∀ t, Moves t.above (row t) above)
    (hinline : ∀ x text, m (setInline x text) = above x + RowTrivia.behind text) (fuel : Nat) :
    Moves 0 (rowsN sep row setInline fuel) (allComments m) := by
  induction fuel with
  | zero =>
      unfold rowsN
      exact .giveUp rfl
  | succ fuel ih =>
      unfold rowsN
      refine .next fun atEnd => ?_
      split
      · exact .pure rfl
      · refine moves_rowTrivia.bind fun t => (hrow t).bind fun x => .next fun more => ?_
        refine .call moves_inline fun text => ?_
        rw [← hinline]
        split
        · refine .pure ?_
          simp
        · refine .call ih fun xs => .pure ?_
          simp

theorem moves_rows {sep : Kind} {row : RowTrivia → Parse α} {setInline : α → Bytes → α}
    {above : α → Multiset Bytes} (hrow : ∀ t, Moves t.above (row t) above)
    (hinline : ∀ x text, m (setInline x text) = above x + RowTrivia.behind text) :
    Moves 0 (rows sep row setInline) (allComments m) :=
  .sized (moves_rowsN hrow hinline)

end

end Parse

end VhdlStyle
