import VhdlStyle.Design.Parse

/-! # What parsing actions are built from

Every action of the parser is put together from a few primitive ones: looking at the tokens,
reading one, reporting a problem, and taking comments. `Built` records this, so that a fact about
the primitive actions that survives sequencing holds of the whole parser. -/

namespace VhdlStyle

/-- The part of a parsing state that decides what is read next: all of it but the diagnostics. -/
structure ParseView where
  rest : List Token
  started : Bool
  last : Span
  pending : List Comment
  gaveUp : Bool

/-- What an action can see of a state. -/
def ParseState.view (s : ParseState) : ParseView :=
  ⟨s.rest, s.started, s.last, s.pending, s.gaveUp⟩

theorem ParseState.size_eq_of_view {s t : ParseState} (h : s.view = t.view) : s.size = t.size :=
  congrArg (fun v => v.rest.length) h

@[simp] theorem ParseState.setLeading_errors (s : ParseState) (leading : List Trivia) :
    (s.setLeading leading).errors = s.errors := by
  unfold ParseState.setLeading
  split <;> rfl

/-- The state with another view and the same diagnostics. -/
def ParseState.withView (s : ParseState) (v : ParseView) : ParseState :=
  { s with
    rest := v.rest, started := v.started, last := v.last, pending := v.pending
    gaveUp := v.gaveUp }

namespace Parse

theorem kind_rowTrivia (s : ParseState) : (rowTrivia s).2.kind = s.kind := by
  change (s.setLeading []).kind = s.kind
  rw [ParseState.setLeading]
  split
  · rfl
  · rename_i hrest
    simp [ParseState.kind, ParseState.current, hrest]

/-- Where a problem is reported: at the current token, or at the last one read. -/
inductive Place where
  | current
  | last

/-- The span of a place. -/
def Place.span (s : ParseState) : Place → Span
  | .current => s.faultSpan
  | .last => s.last

/-- Reports a diagnostic at a place. -/
def reportAt (place : Place) (severity : Severity) (code : Code) (message : Bytes) : Parse Unit :=
  fun s => report severity code (place.span s) message s

/-- The action is made of primitive ones; it takes comments only if `takes` says so. -/
class inductive Built (takes : Bool) : {α : Type} → Parse α → Prop where
  | pure {α : Type} (a : α) : Built takes (pure a)
  | bind {α β : Type} {p : Parse α} {f : α → Parse β} :
      Built takes p → (∀ a, Built takes (f a)) → Built takes (p >>= f)
  | look {α : Type} {f : ParseView → Parse α} :
      (∀ v, Built takes (f v)) → Built takes (fun s => f s.view s)
  | advance : Built takes advance
  | report (place : Place) (severity : Severity) (code : Code) (message : Bytes) :
      Built takes (reportAt place severity code message)
  | giveUp {α : Type} (a : α) : Built takes (giveUp a)
  | rowTrivia : takes = true → Built takes rowTrivia
  | inline : takes = true → Built takes inline
  | tail : takes = true → Built takes tail

section

variable {takes : Bool} {α β : Type}

/-! ## Composition -/

instance built_pure (a : α) : Built takes (pure a) := .pure a

instance built_bind {p : Parse α} {f : α → Parse β} [hp : Built takes p]
    [hf : ∀ a, Built takes (f a)] : Built takes (p >>= f) := .bind hp hf

instance built_ite {b : Prop} [Decidable b] {p q : Parse α} [hp : Built takes p]
    [hq : Built takes q] : Built takes (if b then p else q) := by
  split
  · exact hp
  · exact hq

instance built_sized {f : Nat → Parse α} [hf : ∀ n, Built takes (f n)] :
    Built takes (fun s => f s.size s) :=
  .look (f := fun v => f v.rest.length) fun v => hf v.rest.length

/-- An action may look at the state, as long as only the view matters. -/
theorem Built.get {f : ParseState → Parse α} (hview : ∀ s t, s.view = t.view → f s = f t)
    (hf : ∀ s, Built takes (f s)) : Built takes (MonadState.get >>= f) := by
  have heq : (MonadState.get >>= f : Parse α) =
      fun s => f (ParseState.withView default s.view) s := by
    funext s
    exact congrFun (hview s (ParseState.withView default s.view) rfl) s
  rw [heq]
  exact .look fun v => hf (ParseState.withView default v)

/-- A value read off the view. -/
theorem Built.observe (f : ParseView → α) : Built takes (fun s => (f s.view, s) : Parse α) :=
  .look (f := fun v => Pure.pure (f v)) fun v => .pure (f v)

/-- The current token as it is seen. -/
def currentOf (v : ParseView) : Token := v.rest.headD ⟨.eof, default, [], []⟩

instance built_current : Built takes current := .observe currentOf

instance built_kind : Built takes kind := .observe fun v => (currentOf v).kind

instance built_kindAhead (n : Nat) : Built takes (kindAhead n) :=
  .observe fun v => match v.rest[n]? with
    | some t => t.kind
    | none => .eof

instance built_isAt (k : Kind) : Built takes (isAt k) :=
  .observe fun v => (currentOf v).kind == k

instance built_isAtAny (ks : List Kind) : Built takes (isAtAny ks) :=
  .observe fun v => ks.contains (currentOf v).kind

instance built_advance : Built takes advance := .advance

instance built_giveUp (a : α) : Built takes (giveUp a) := .giveUp a

instance built_rowTrivia : Built true rowTrivia := .rowTrivia rfl

instance built_inline : Built true inline := .inline rfl

instance built_tail : Built true tail := .tail rfl

/-! ## Errors -/

theorem Built.errors_le {takes : Bool} {p : Parse α} (h : Built takes p) (s : ParseState) :
    s.errors ≤ (p s).2.errors := by
  induction h generalizing s with
  | pure a => exact Nat.le_refl _
  | bind _ _ ihp ihf => exact Nat.le_trans (ihp s) (ihf _ _)
  | look _ ih => exact ih _ s
  | advance =>
      unfold Parse.advance
      split
      · exact Nat.le_refl _
      · split <;> exact Nat.le_refl _
  | report place severity code message =>
      change s.errors ≤ if severity == .error then s.errors + 1 else s.errors
      split <;> omega
  | giveUp => exact Nat.le_refl _
  | rowTrivia _ | tail _ => exact Nat.le_of_eq (s.setLeading_errors []).symm
  | inline _ =>
      unfold Parse.inline
      split
      · exact Nat.le_of_eq (s.setLeading_errors _).symm
      · exact Nat.le_refl _

theorem fault_errors (code : Code) (message : Bytes) (s : ParseState) :
    s.errors < (fault code message s).2.errors := Nat.lt_succ_self s.errors

end

end Parse

end VhdlStyle
