import VhdlStyle.Proofs.Parsing.Progress

/-! # Loops end before their bounds

Every loop of the parser, and every level of nesting, is bounded by the number of tokens left. None
of these bounds is ever met: each round of a loop, and each step into a deeper level, takes a token
before the end token. `Finishes n` says this of an action from states with at most `n` tokens, and
`Takes n k` that the action, started at a token of kind `k`, moves past it. -/

namespace VhdlStyle

/-- No loop has given up, and at most `n` tokens are left, the last of them the end token. -/
structure ParseState.Live (n : Nat) (s : ParseState) : Prop where
  ended : s.Ended
  size_le : s.size ≤ n
  kept : s.gaveUp = false

namespace ParseState.Live

variable {n m : Nat} {s : ParseState}

theorem mono (h : s.Live n) (hle : n ≤ m) : s.Live m :=
  ⟨h.ended, Nat.le_trans h.size_le hle, h.kept⟩

theorem self (h : s.Live n) : s.Live s.size := ⟨h.ended, Nat.le_refl _, h.kept⟩

theorem not_zero (h : s.Live 0) : False := by
  have hpos := h.ended.size_pos
  have hle := h.size_le
  omega

@[simp] theorem setLeading_gaveUp (s : ParseState) (leading : List Trivia) :
    (s.setLeading leading).gaveUp = s.gaveUp := by
  rw [ParseState.setLeading]
  split <;> rfl

theorem setLeading (h : s.Live n) (leading : List Trivia) : (s.setLeading leading).Live n :=
  ⟨h.ended.setLeading leading, (s.setLeading_size leading).symm ▸ h.size_le,
    (setLeading_gaveUp s leading).trans h.kept⟩

end ParseState.Live

namespace Parse

variable {α β : Type}

/-- From a state with at most `n` tokens no loop gives up, and no token is put back. -/
class Finishes (n : Nat) (p : Parse α) : Prop where
  run : ∀ s : ParseState, s.Live n → (p s).2.Live s.size

/-- As `Finishes (n + 1)`, but only at a token of kind `k`. -/
structure FinishesAt (n : Nat) (k : Kind) (p : Parse α) : Prop where
  run : ∀ s : ParseState, s.Live (n + 1) → s.kind = k → (p s).2.Live s.size

/-- From a state with at most `n + 1` tokens, at a token of kind `k`, no loop gives up, and that
token at least is taken. -/
structure Takes (n : Nat) (k : Kind) (p : Parse α) : Prop where
  run : ∀ s : ParseState, s.Live (n + 1) → s.kind = k → (p s).2.Live (s.size - 1)

section

variable {n m : Nat} {k : Kind} {p : Parse α} {f : α → Parse β}

/-! ## Composition -/

theorem Finishes.mono (h : Finishes n p) (hle : m ≤ n) : Finishes m p :=
  ⟨fun s hs => h.run s (hs.mono hle)⟩

/-- There is no state without tokens. -/
theorem Finishes.zero : Finishes 0 p := ⟨fun _ hs => hs.not_zero.elim⟩

theorem Takes.finishesAt (h : Takes n k p) : FinishesAt n k p :=
  ⟨fun s hs hk => (h.run s hs hk).mono (Nat.sub_le _ _)⟩

theorem Finishes.finishesAt (h : Finishes (n + 1) p) : FinishesAt n k p :=
  ⟨fun s hs _ => h.run s hs⟩

instance finishes_pure (a : α) : Finishes n (pure a) := ⟨fun _ hs => hs.self⟩

theorem Finishes.bind (hp : Finishes n p) (hf : ∀ a, Finishes n (f a)) : Finishes n (p >>= f) := by
  refine ⟨fun s hs => ?_⟩
  have hfirst := hp.run s hs
  exact ((hf _).run _ (hfirst.mono hs.size_le)).mono hfirst.size_le

instance finishes_bind [hp : Finishes n p] [hf : ∀ a, Finishes n (f a)] : Finishes n (p >>= f) :=
  hp.bind hf

instance finishes_map {g : α → β} [hp : Finishes n p] : Finishes n (g <$> p) :=
  hp.bind fun a => finishes_pure (g a)

instance finishes_ite {b : Prop} [Decidable b] {q : Parse α} [hp : Finishes n p]
    [hq : Finishes n q] : Finishes n (if b then p else q) := by
  split
  · exact hp
  · exact hq

/-- After a token is taken, one fewer is left to read. -/
theorem Takes.bind (hp : Takes n k p) (hf : ∀ a, Finishes n (f a)) : Takes n k (p >>= f) := by
  refine ⟨fun s hs hk => ?_⟩
  have hfirst := hp.run s hs hk
  have hbound : s.size - 1 ≤ n := Nat.sub_le_of_le_add hs.size_le
  exact ((hf _).run _ (hfirst.mono hbound)).mono hfirst.size_le

theorem Takes.map {g : α → β} (hp : Takes n k p) : Takes n k (g <$> p) :=
  hp.bind fun a => finishes_pure (g a)

/-- An action that does not move may come first. -/
theorem Takes.after (hp : Finishes (n + 1) p) (hstill : ∀ s, (p s).2.kind = s.kind)
    (hf : ∀ a, Takes n k (f a)) : Takes n k (p >>= f) := by
  refine ⟨fun s hs hk => ?_⟩
  have hfirst := hp.run s hs
  have hsecond := (hf (p s).1).run (p s).2 (hfirst.mono hs.size_le) ((hstill s).trans hk)
  exact hsecond.mono (Nat.sub_le_sub_right hfirst.size_le 1)

/-- An action may depend on the number of tokens left. -/
theorem Finishes.sized {f : Nat → Parse α} (hf : ∀ m, m ≤ n → Finishes m (f m)) :
    Finishes n (fun s => f s.size s) :=
  ⟨fun s hs => (hf s.size hs.size_le).run s hs.self⟩

/-! ## Primitive actions -/

/-- An action that leaves the state as it is. -/
theorem Finishes.of_state_eq (h : ∀ s, (p s).2 = s) : Finishes n p :=
  ⟨fun s hs => (h s).symm ▸ hs.self⟩

instance finishes_current : Finishes n current := .of_state_eq fun _ => rfl

instance finishes_kind : Finishes n kind := .of_state_eq fun _ => rfl

instance finishes_kindAhead (i : Nat) : Finishes n (kindAhead i) := .of_state_eq fun _ => rfl

instance finishes_isAt (k : Kind) : Finishes n (isAt k) := .of_state_eq fun _ => rfl

instance finishes_isAtAny (ks : List Kind) : Finishes n (isAtAny ks) := .of_state_eq fun _ => rfl

instance finishes_get : Finishes n (get : Parse ParseState) := .of_state_eq fun _ => rfl

instance finishes_report (severity : Severity) (code : Code) (span : Span) (message : Bytes) :
    Finishes n (report severity code span message) :=
  ⟨fun _ hs => ⟨hs.ended, Nat.le_refl _, hs.kept⟩⟩

instance finishes_rowTrivia : Finishes n rowTrivia := by
  refine ⟨fun s hs => ?_⟩
  have hlive := hs.self.setLeading []
  exact ⟨hlive.ended, hlive.size_le, hlive.kept⟩

instance finishes_tail : Finishes n tail := by
  refine ⟨fun s hs => ?_⟩
  have hlive := hs.self.setLeading []
  exact ⟨hlive.ended, hlive.size_le, hlive.kept⟩

instance finishes_inline : Finishes n inline := by
  refine ⟨fun s hs => ?_⟩
  rw [inline]
  split
  · exact hs.self.setLeading _
  · exact hs.self

theorem advance_gaveUp (s : ParseState) : (advance s).2.gaveUp = s.gaveUp := by
  rw [advance]
  split
  · rfl
  · split <;> rfl

instance finishes_advance : Finishes n advance := by
  refine ⟨fun s hs => ?_⟩
  have hbuilt : Built true advance := inferInstance
  exact ⟨hbuilt.ended s hs.ended, hbuilt.size_le s, (advance_gaveUp s).trans hs.kept⟩

theorem takes_advance (hk : k ≠ .eof) : Takes n k advance := by
  refine ⟨fun s hs hkind => ?_⟩
  have hlive := (finishes_advance (n := n + 1)).run s hs
  have hsize : s.size ≠ 1 := fun hone => hk (hkind ▸ hs.ended.kind_eq_eof_iff.mpr hone)
  have hread := advance_size hs.ended hsize
  exact ⟨hlive.ended, by omega, hlive.kept⟩

instance finishes_skip : Finishes n skip := finishes_bind

theorem takes_skip (hk : k ≠ .eof) : Takes n k skip := (takes_advance hk).bind fun _ => inferInstance

/-! ## Decisions

What is read after a decision is read at the token that was seen. -/

/-- The kind of the current token decides. -/
theorem Finishes.kind {f : Kind → Parse α} (hf : ∀ k, FinishesAt n k (f k)) :
    Finishes (n + 1) (Parse.kind >>= f) :=
  ⟨fun s hs => (hf s.kind).run s hs rfl⟩

/-- The current token decides. -/
theorem Finishes.current {f : Token → Parse α} (hf : ∀ t, FinishesAt n t.kind (f t)) :
    Finishes (n + 1) (Parse.current >>= f) :=
  ⟨fun s hs => (hf s.current).run s hs rfl⟩

/-- An action that leaves the state as it is may come first. -/
theorem FinishesAt.look (hp : ∀ s, (p s).2 = s) (hf : ∀ a, FinishesAt n k (f a)) :
    FinishesAt n k (p >>= f) := by
  refine ⟨fun s hs hk => ?_⟩
  have hrun := (hf (p s).1).run s hs hk
  change (f (p s).1 (p s).2).2.Live s.size
  rwa [hp s]

theorem FinishesAt.ite {b : Prop} [Decidable b] {q : Parse α} (hp : FinishesAt n k p)
    (hq : FinishesAt n k q) : FinishesAt n k (if b then p else q) := by
  split
  · exact hp
  · exact hq

theorem Finishes.isAt {f : Bool → Parse α} (htrue : FinishesAt n k (f true))
    (hfalse : Finishes (n + 1) (f false)) : Finishes (n + 1) (Parse.isAt k >>= f) := by
  refine ⟨fun s hs => ?_⟩
  change (f (s.kind == k) s).2.Live s.size
  by_cases hk : s.kind = k
  · rw [beq_iff_eq.mpr hk]
    exact htrue.run s hs hk
  · rw [beq_eq_false_iff_ne.mpr hk]
    exact hfalse.run s hs

theorem Finishes.ifAt {q : Parse α} (hp : FinishesAt n k p) (hq : Finishes (n + 1) q) :
    Finishes (n + 1) (do if ← Parse.isAt k then p else q) := .isAt hp hq

/-- Before the end token the kind is another one. -/
theorem Finishes.isAtEnd {f : Bool → Parse α} (htrue : Finishes (n + 1) (f true))
    (hfalse : ∀ k, k ≠ .eof → FinishesAt n k (f false)) :
    Finishes (n + 1) (Parse.isAt .eof >>= f) := by
  refine ⟨fun s hs => ?_⟩
  change (f (s.kind == .eof) s).2.Live s.size
  by_cases hk : s.kind = .eof
  · rw [beq_iff_eq.mpr hk]
    exact htrue.run s hs
  · rw [beq_eq_false_iff_ne.mpr hk]
    exact (hfalse s.kind hk).run s hs rfl

theorem Finishes.isAtAny {ks : List Kind} {f : Bool → Parse α}
    (htrue : ∀ k ∈ ks, FinishesAt n k (f true)) (hfalse : Finishes (n + 1) (f false)) :
    Finishes (n + 1) (Parse.isAtAny ks >>= f) := by
  refine ⟨fun s hs => ?_⟩
  change (f (ks.contains s.kind) s).2.Live s.size
  by_cases hk : s.kind ∈ ks
  · rw [List.contains_iff_mem.mpr hk]
    exact (htrue s.kind hk).run s hs rfl
  · rw [Bool.eq_false_iff.mpr (mt List.contains_iff_mem.mp hk)]
    exact hfalse.run s hs

/-- A token read if it comes is taken. -/
theorem Finishes.accept? {f : Option Token → Parse α} (hk : k ≠ .eof)
    (hsome : ∀ t, Finishes n (f (some t))) (hnone : Finishes (n + 1) (f none)) :
    Finishes (n + 1) (Parse.accept? k >>= f) := by
  refine .isAt (f := fun b => (if b then (return some (← advance)) else return none) >>= f) ?_ hnone
  have htaken : Takes n k (advance >>= fun t => f (some t)) := (takes_advance hk).bind hsome
  exact htaken.finishesAt

theorem Finishes.accept {f : Bool → Parse α} (hk : k ≠ .eof) (htrue : Finishes n (f true))
    (hfalse : Finishes (n + 1) (f false)) : Finishes (n + 1) (Parse.accept k >>= f) :=
  .accept? (f := fun t => f t.isSome) hk (fun _ => htrue) hfalse

/-- A round that reads nothing is made to skip a token. -/
theorem FinishesAt.forced {next : α → Parse β} (hk : k ≠ .eof) (hp : Finishes (n + 1) p)
    (hnext : ∀ x, Finishes n (next x)) :
    FinishesAt n k (do
      let before ← get
      let x ← p
      let after ← get
      if after.size == before.size then skip >>= fun _ => next x else next x) := by
  refine ⟨fun s hs hkind => ?_⟩
  have hround := hp.run s hs
  have hbound : s.size - 1 ≤ n := Nat.sub_le_of_le_add hs.size_le
  have hmore : s.size ≠ 1 := fun hone => hk (hkind ▸ hs.ended.kind_eq_eof_iff.mpr hone)
  have hrest (x : α) {t : ParseState} (ht : t.Live (s.size - 1)) : (next x t).2.Live s.size :=
    ((hnext x).run t (ht.mono hbound)).mono (Nat.le_trans ht.size_le (Nat.sub_le _ _))
  change ((if (p s).2.size == s.size then skip >>= fun _ => next (p s).1 else next (p s).1)
    (p s).2).2.Live s.size
  by_cases hsame : (p s).2.size = s.size
  · have hread := advance_size hround.ended (hsame.symm ▸ hmore)
    have hlive := (finishes_advance (n := s.size)).run (p s).2 hround
    have htaken : (advance (p s).2).2.Live (s.size - 1) := ⟨hlive.ended, by omega, hlive.kept⟩
    rw [if_pos (beq_iff_eq.mpr hsame)]
    exact hrest (p s).1 htaken
  · have hless : (p s).2.size ≤ s.size - 1 := by
      have hle := hround.size_le
      omega
    rw [if_neg (by simpa using hsame)]
    exact hrest (p s).1 ⟨hround.ended, hless, hround.kept⟩

theorem Takes.isAt {f : Bool → Parse α} (htrue : Takes n k (f true)) :
    Takes n k (Parse.isAt k >>= f) := by
  refine ⟨fun s hs hk => ?_⟩
  change (f (s.kind == k) s).2.Live (s.size - 1)
  rw [beq_iff_eq.mpr hk]
  exact htrue.run s hs hk

theorem Takes.accept {f : Bool → Parse α} (hk : k ≠ .eof) (htrue : Finishes n (f true)) :
    Takes n k (Parse.accept k >>= f) := by
  have htaken : Takes n k (advance >>= fun _ => f true) := (takes_advance hk).bind fun _ => htrue
  exact .isAt (f := fun b => (if b then (return some (← advance)) else return none) >>=
    fun t => f t.isSome) htaken

/-- A token of another kind is passed by. -/
theorem Takes.pass {j : Kind} {f : Bool → Parse α} (hne : k ≠ j) (hfalse : Takes n k (f false)) :
    Takes n k (Parse.accept j >>= f) := by
  refine ⟨fun s hs hk => ?_⟩
  have hother : Parse.accept j s = (false, s) := by
    have hkind : (s.kind == j) = false := beq_eq_false_iff_ne.mpr (hk ▸ hne)
    change ((if (s.kind == j) = true then some <$> advance else pure none :
      Parse (Option Token)) >>= fun t => pure t.isSome) s = (false, s)
    rw [hkind]
    rfl
  change (f (Parse.accept j s).1 (Parse.accept j s).2).2.Live (s.size - 1)
  rw [hother]
  exact hfalse.run s hs hk

end

/-! ## Shared actions -/

section

variable {n : Nat} {α : Type}

instance finishes_accept? (k : Kind) : Finishes n (accept? k) := by
  rw [accept?]
  infer_instance

instance finishes_accept (k : Kind) : Finishes n (accept k) := finishes_bind

instance finishes_fault (code : Code) (message : Bytes) : Finishes n (fault code message) :=
  finishes_bind

instance finishes_faultGot (code : Code) (expected : Bytes) : Finishes n (faultGot code expected) :=
  finishes_bind

instance finishes_expect (k : Kind) (code : Code) (expected : Bytes) :
    Finishes n (expect k code expected) := by
  rw [expect]
  infer_instance

instance finishes_expect_ (k : Kind) (code : Code) (expected : Bytes) :
    Finishes n (expect_ k code expected) := finishes_bind

instance finishes_keyword (k : Kind) : Finishes n (keyword k) := finishes_expect_ ..

instance finishes_semicolon : Finishes n semicolon := finishes_expect_ ..

theorem takes_keyword {k : Kind} (hk : k ≠ .eof) : Takes n k (keyword k) :=
  .bind (.isAt ((takes_advance hk).bind fun _ => inferInstance)) fun _ => inferInstance

theorem finishes_manyN (stops : List Kind) (item : Parse (Option α)) [hitem : Finishes n item]
    (fuel : Nat) (hfuel : fuel ≤ n) : Finishes fuel (manyN stops item fuel) := by
  induction fuel with
  | zero => exact .zero
  | succ fuel ih =>
      have hrest := ih (Nat.le_of_succ_le hfuel)
      rw [manyN]
      have hstop : Finishes (fuel + 1) (pure [] : Parse (List α)) := inferInstance
      have hend : Finishes (fuel + 1) (isAt .eof >>= fun _ => pure [] : Parse (List α)) :=
        inferInstance
      refine .isAtAny (fun _ _ => hend.finishesAt) (.isAtEnd hstop fun k hk => ?_)
      exact .forced hk (hitem.mono hfuel) fun x => inferInstance

instance finishes_many (stops : List Kind) (item : Parse (Option α)) [Finishes n item] :
    Finishes n (many stops item) := .sized (finishes_manyN stops item)

theorem finishes_afterEachN {sep : Kind} (hsep : sep ≠ .eof) (item : Parse α)
    [hitem : Finishes n item] (fuel : Nat) (hfuel : fuel ≤ n) :
    Finishes fuel (afterEachN sep item fuel) := by
  induction fuel with
  | zero => exact .zero
  | succ fuel ih =>
      have hrest := ih (Nat.le_of_succ_le hfuel)
      have hitem' := hitem.mono (Nat.le_of_succ_le hfuel)
      rw [afterEachN]
      exact .accept hsep (hitem'.bind fun x => inferInstance) (finishes_pure [])

theorem finishes_afterEach {sep : Kind} (hsep : sep ≠ .eof) (item : Parse α)
    [Finishes n item] : Finishes n (fun s => afterEachN sep item s.size s) :=
  .sized (finishes_afterEachN hsep item)

theorem finishes_sepBy {sep : Kind} (hsep : sep ≠ .eof) (item : Parse α) [hitem : Finishes n item] :
    Finishes n (sepBy sep item) :=
  hitem.bind fun _ => (finishes_afterEach hsep item).bind fun _ => inferInstance

theorem finishes_sepBySomeN {sep : Kind} (hsep : sep ≠ .eof) (item : Parse (Option α))
    [hitem : Finishes n item] (fuel : Nat) (hfuel : fuel ≤ n) :
    Finishes fuel (sepBySomeN sep item fuel) := by
  induction fuel with
  | zero => exact .zero
  | succ fuel ih =>
      have hrest := ih (Nat.le_of_succ_le hfuel)
      rw [sepBySomeN]
      refine (hitem.mono hfuel).bind fun x => ?_
      cases x with
      | none => exact finishes_pure []
      | some x => exact .accept hsep (hrest.bind fun xs => inferInstance) (finishes_pure [x])

/-- The bound is one more than the number of tokens. -/
theorem finishes_sepBySome {sep : Kind} (hsep : sep ≠ .eof) (item : Parse (Option α))
    [hitem : ∀ m, Finishes m item] : Finishes n (sepBySome sep item) :=
  .sized fun m _ => (finishes_sepBySomeN hsep item (m + 1) (Nat.le_refl _)).mono (Nat.le_succ m)

instance finishes_ident? : Finishes n ident? := by
  rw [ident?]
  infer_instance

instance finishes_ident : Finishes n ident := finishes_bind

instance finishes_identList : Finishes n identList := finishes_sepBySome (by decide) ident?

instance finishes_optLabel : Finishes n optLabel := by
  rw [optLabel]
  infer_instance

instance finishes_checkEndLabel (label name : Bytes) : Finishes n (checkEndLabel label name) := by
  rw [checkEndLabel]
  infer_instance

instance finishes_keywords (words : List Kind) : Finishes n (words.forM keyword) := by
  induction words with
  | nil => exact finishes_pure ()
  | cons word others ih => exact (finishes_keyword word).bind fun _ => ih

instance finishes_endClause (name : Bytes) (words : List Kind) :
    Finishes n (endClause name words) := by
  rw [endClause]
  refine (finishes_keyword _).bind fun _ => ?_
  cases words with
  | nil => infer_instance
  | cons word others =>
      refine (finishes_isAt word).bind fun isWord => ?_
      split <;> infer_instance

instance finishes_resyncN (stops : List Kind) (fuel depth : Nat) :
    Finishes fuel (resyncN stops fuel depth) := by
  induction fuel generalizing depth with
  | zero => exact .zero
  | succ fuel ih =>
      rw [resyncN]
      refine .kind fun k => ?_
      by_cases hk : k = .eof
      · simp only [hk, beq_self_eq_true, if_true]
        exact (finishes_pure ()).finishesAt
      · have hskip (depth : Nat) : FinishesAt fuel k (skip >>= fun _ => resyncN stops fuel depth) :=
          ((takes_skip hk).bind fun _ => ih depth).finishesAt
        simp only [beq_iff_eq, hk, if_false]
        split
        · exact hskip _
        · split
          · exact hskip _
          · split
            · exact (takes_skip hk).finishesAt
            · split
              · exact (finishes_pure ()).finishesAt
              · exact hskip _

instance finishes_resyncTo (stops : List Kind) : Finishes n (resyncTo stops) :=
  .sized fun m _ => finishes_resyncN stops m 0

instance finishes_withInline (t : RowTrivia) : Finishes n (withInline t) := finishes_bind

theorem finishes_rowsN {sep : Kind} (hsep : sep ≠ .eof) (row : RowTrivia → Parse α)
    (setInline : α → Bytes → α) [hrow : ∀ t, Finishes n (row t)] (fuel : Nat) (hfuel : fuel ≤ n) :
    Finishes fuel (rowsN sep row setInline fuel) := by
  induction fuel with
  | zero => exact .zero
  | succ fuel ih =>
      have hrest := ih (Nat.le_of_succ_le hfuel)
      have hstop : Finishes (fuel + 1) (pure [] : Parse (List α)) := inferInstance
      rw [rowsN]
      refine .isAtAny (fun _ _ => hstop.finishesAt) ?_
      refine Finishes.bind inferInstance fun t => ((hrow t).mono hfuel).bind fun x => ?_
      refine .accept hsep ?_ ?_
      · exact finishes_inline.bind fun _ => hrest.bind fun _ => inferInstance
      · exact finishes_inline.bind fun _ => finishes_pure _

theorem finishes_rows {sep : Kind} (hsep : sep ≠ .eof) (row : RowTrivia → Parse α)
    (setInline : α → Bytes → α) [∀ t, Finishes n (row t)] :
    Finishes n (rows sep row setInline) := .sized (finishes_rowsN hsep row setInline)

end

end Parse

end VhdlStyle
