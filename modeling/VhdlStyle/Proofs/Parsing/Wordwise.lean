import VhdlStyle.Proofs.Parsing.Built
import VhdlStyle.Design.Expr.Parser

/-! # Actions that see only words

Of the tokens still to be read an action of the parser sees the words alone, their kinds and texts,
and of a token it has read it uses nothing else. Spans go into diagnostics, and trivia into comments
and blank lines. `Wordwise` refines `Built` by this. -/

namespace VhdlStyle

/-- A token of which only the word is known. -/
@[reducible] def Token.asWord (t : Token) : Token := ⟨t.kind, default, t.text, []⟩

/-- The words still to be read, that of the end token included. -/
def ParseState.leaves (s : ParseState) : List Leaf := s.rest.map Expr.leafOf

/-- Some state with these words. -/
def ParseState.ofLeaves (ws : List Leaf) : ParseState :=
  { rest := ws.map fun w => ⟨w.kind, default, w.text, []⟩, bag := default }

namespace ParseState

@[simp] theorem leaves_ofLeaves (ws : List Leaf) : (ofLeaves ws).leaves = ws := by
  rw [leaves, ofLeaves, List.map_map]
  exact List.map_id ws

theorem size_eq_of_leaves {s t : ParseState} (h : s.leaves = t.leaves) : s.size = t.size := by
  have hlength := congrArg List.length h
  simpa [leaves, size] using hlength

theorem asWord_eq_of_leaves {s t : ParseState} (h : s.leaves = t.leaves) :
    s.current.asWord = t.current.asWord := by
  cases hs : s.rest <;> cases ht : t.rest <;> simp_all [leaves, current, Expr.leafOf]

theorem kind_eq_of_leaves {s t : ParseState} (h : s.leaves = t.leaves) : s.kind = t.kind := by
  have hkinds : s.current.asWord.kind = t.current.asWord.kind := by rw [asWord_eq_of_leaves h]
  exact hkinds

theorem kindAhead_eq_of_leaves {s t : ParseState} (h : s.leaves = t.leaves) (n : Nat) :
    s.kindAhead n = t.kindAhead n := by
  have hkind (u : ParseState) :
      u.kindAhead n = (u.leaves[n]?.map Leaf.kind).getD .eof := by
    rw [kindAhead, leaves, List.getElem?_map]
    cases u.rest[n]? <;> rfl
  rw [hkind, hkind, h]

end ParseState

namespace Parse

/-- The two agree: what depends on a token depends on its word. -/
class Agree {α : Type} (a b : α) : Prop where
  eq : a = b

instance agree_refl {α : Type} (a : α) : Agree a a := ⟨rfl⟩

/-- The action is made of primitive ones and sees of tokens only words; it takes comments only if
`takes` says so. -/
class inductive Wordwise (takes : Bool) : {α : Type} → Parse α → Prop where
  | pure {α : Type} (a : α) : Wordwise takes (pure a)
  | bind {α β : Type} {p : Parse α} {f : α → Parse β} :
      Wordwise takes p → (∀ a, Wordwise takes (f a)) → Wordwise takes (p >>= f)
  | look {α : Type} {f : List Leaf → Parse α} :
      (∀ ws, Wordwise takes (f ws)) → Wordwise takes (fun s => f s.leaves s)
  | advance {α : Type} {f : Token → Parse α} :
      (∀ t, f t = f t.asWord) → (∀ t, Wordwise takes (f t)) → Wordwise takes (advance >>= f)
  | report (place : Place) (severity : Severity) (code : Code) (message : Bytes) :
      Wordwise takes (reportAt place severity code message)
  | giveUp {α : Type} (a : α) : Wordwise takes (giveUp a)
  | rowTrivia : takes = true → Wordwise takes rowTrivia
  | inline : takes = true → Wordwise takes inline
  | tail : takes = true → Wordwise takes tail

section

variable {takes : Bool} {α β : Type}

instance (priority := low) built_of_wordwise {p : Parse α} [h : Wordwise takes p] :
    Built takes p := by
  induction h with
  | pure a => exact .pure a
  | bind _ _ ihp ihf => exact .bind ihp ihf
  | look _ ih => exact .look (f := fun v => _) fun v => ih (v.rest.map Expr.leafOf)
  | advance _ _ ih => exact .bind .advance ih
  | report place severity code message => exact .report place severity code message
  | giveUp a => exact .giveUp a
  | rowTrivia h => exact .rowTrivia h
  | inline h => exact .inline h
  | tail h => exact .tail h

/-! ## Composition -/

instance wordwise_pure (a : α) : Wordwise takes (pure a) := .pure a

instance wordwise_bind {p : Parse α} {f : α → Parse β} [hp : Wordwise takes p]
    [hf : ∀ a, Wordwise takes (f a)] : Wordwise takes (p >>= f) := .bind hp hf

instance wordwise_map {p : Parse α} {f : α → β} [hp : Wordwise takes p] :
    Wordwise takes (f <$> p) := .bind hp fun a => .pure (f a)

instance wordwise_ite {b : Prop} [Decidable b] {p q : Parse α} [hp : Wordwise takes p]
    [hq : Wordwise takes q] : Wordwise takes (if b then p else q) := by
  split
  · exact hp
  · exact hq

/-- An action may look at the state, as long as only its words matter. -/
theorem Wordwise.get {f : ParseState → Parse α}
    (hleaves : ∀ s t, s.leaves = t.leaves → f s = f t) (hf : ∀ s, Wordwise takes (f s)) :
    Wordwise takes (MonadState.get >>= f) := by
  have heq : (MonadState.get >>= f : Parse α) = fun s => f (ParseState.ofLeaves s.leaves) s := by
    funext s
    exact congrFun (hleaves s (ParseState.ofLeaves s.leaves) (by simp)) s
  rw [heq]
  exact .look fun ws => hf (ParseState.ofLeaves ws)

instance wordwise_sized {f : Nat → Parse α} [hf : ∀ n, Wordwise takes (f n)] :
    Wordwise takes (fun s => f s.size s) :=
  Wordwise.get (f := fun s => f s.size) (fun _ _ h => by rw [ParseState.size_eq_of_leaves h])
    fun s => hf s.size

/-- A value read off the words. -/
theorem Wordwise.observe {f : ParseState → α} (hleaves : ∀ s t, s.leaves = t.leaves → f s = f t) :
    Wordwise takes (fun s => (f s, s) : Parse α) :=
  Wordwise.get (f := fun s => Pure.pure (f s)) (fun s t h => by rw [hleaves s t h])
    fun s => .pure (f s)

/-! ## Looking and moving -/

instance wordwise_kind : Wordwise takes kind := .observe fun _ _ => ParseState.kind_eq_of_leaves

instance wordwise_kindAhead (n : Nat) : Wordwise takes (kindAhead n) :=
  .observe fun _ _ h => ParseState.kindAhead_eq_of_leaves h n

instance wordwise_isAt (k : Kind) : Wordwise takes (isAt k) :=
  .observe (f := fun s => s.kind == k) fun _ _ h => by rw [ParseState.kind_eq_of_leaves h]

instance wordwise_isAtAny (ks : List Kind) : Wordwise takes (isAtAny ks) :=
  .observe (f := fun s => ks.contains s.kind) fun _ _ h => by rw [ParseState.kind_eq_of_leaves h]

theorem Wordwise.current {f : Token → Parse α} (hword : ∀ t, f t = f t.asWord)
    (hf : ∀ t, Wordwise takes (f t)) : Wordwise takes (current >>= f) :=
  .get (f := fun s => f s.current) (fun s t h => by
    rw [hword s.current, hword t.current, ParseState.asWord_eq_of_leaves h]) fun s => hf s.current

instance wordwise_current {f : Token → Parse α} [hf : ∀ t, Wordwise takes (f t)]
    [hword : ∀ t, Agree (f t) (f t.asWord)] : Wordwise takes (current >>= f) :=
  .current (fun t => (hword t).eq) hf

instance wordwise_advance {f : Token → Parse α} [hf : ∀ t, Wordwise takes (f t)]
    [hword : ∀ t, Agree (f t) (f t.asWord)] : Wordwise takes (advance >>= f) :=
  .advance (fun t => (hword t).eq) hf

theorem accept?_bind (k : Kind) (f : Option Token → Parse α) :
    (accept? k >>= f) =
      isAt k >>= fun b => if b then advance >>= fun t => f (some t) else f none := by
  rw [accept?, bind_assoc]
  refine congrArg (isAt k >>= ·) (funext fun b => ?_)
  cases b <;> rfl

instance wordwise_accept?_bind {k : Kind} {f : Option Token → Parse α}
    [hnone : Wordwise takes (f none)] [hsome : ∀ t, Wordwise takes (f (some t))]
    [hword : ∀ t, Agree (f (some t)) (f (some t.asWord))] : Wordwise takes (accept? k >>= f) := by
  rw [accept?_bind]
  infer_instance

instance wordwise_giveUp (a : α) : Wordwise takes (giveUp a) := .giveUp a

instance wordwise_rowTrivia : Wordwise true rowTrivia := .rowTrivia rfl

instance wordwise_inline : Wordwise true inline := .inline rfl

instance wordwise_tail : Wordwise true tail := .tail rfl

end

end Parse

end VhdlStyle
