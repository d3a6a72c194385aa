import VhdlStyle.Proofs.Parsing.Complete
import VhdlStyle.Proofs.Parsing.Reads

/-! # What a run without errors gives

`Gives p Q` says that every run of an action that reports no error gives a value with `Q`. The
rules follow the way an action is put together. What the first half of an action gives is handed on
as a condition in the property of the second half: the rules speak of every value the second half
may start from, as behind an error the parser goes on with a gap. -/

namespace VhdlStyle

open Parse

/-- The token is a word or the end of the source. -/
structure Token.Whole (t : Token) : Prop where
  kind : t.kind ≠ .invalid
  text : t.kind ≠ .eof → t.text ≠ []
  sound : t.kind ≠ .eof → (Leaf.mk t.kind t.text).Sound

theorem Token.Whole.present {t : Token} (h : t.Whole) (hkind : t.kind ≠ .eof) :
    (Expr.leafOf t).Present := ⟨h.kind, h.text hkind⟩

namespace ParseState

/-- The tokens still to be read are whole. -/
def Whole (s : ParseState) : Prop := ∀ t ∈ s.rest, t.Whole

theorem Whole.current {s : ParseState} (h : s.Whole) : s.current.Whole := by
  rw [ParseState.current]
  cases hrest : s.rest with
  | nil => exact ⟨by simp, by simp, by simp⟩
  | cons t rest => exact h t (hrest ▸ List.mem_cons_self)

theorem Follows.whole {s t : ParseState} (h : s.Follows t) (hs : s.Whole) : t.Whole := by
  intro u hu
  obtain ⟨v, hv, hbare⟩ := List.mem_map.mp (h.subset (List.mem_map_of_mem hu))
  have hkind : v.bare.kind = u.bare.kind := by rw [hbare]
  have htext : v.bare.text = u.bare.text := by rw [hbare]
  have hv := hs v hv
  rw [Token.bare] at hkind htext
  exact ⟨hkind ▸ hv.kind, hkind ▸ htext ▸ hv.text, hkind ▸ htext ▸ hv.sound⟩

end ParseState

namespace Parse

variable {α β : Type}

theorem Built.whole {p : Parse α} (hp : Built true p) {s : ParseState} (hs : s.Whole) :
    (p s).2.Whole := by
  obtain ⟨visited, hvisits⟩ := hp.visits s
  exact hvisits.passes.last.whole hs

theorem isAt_eq_isAtAny (k : Kind) : isAt k = isAtAny [k] := by
  funext s
  change (s.kind == k, s) = ([k].contains s.kind, s)
  rw [List.contains_cons, List.contains_nil, Bool.or_false]

/-- Runs without errors over whole tokens give values with `Q`. -/
structure Gives (p : Parse α) (Q : α → Prop) : Prop where
  built : Built true p
  run : ∀ s : ParseState, s.Whole → s.Clean (p s).2 → Q (p s).1

namespace Gives

variable {p q : Parse α} {P Q : α → Prop} {f : α → Parse β} {R : β → Prop}

/-! ## Composition -/

theorem pure {a : α} (h : Q a) : Gives (pure a) Q := ⟨.pure a, fun _ _ _ => h⟩

theorem giveUp {a : α} : Gives (Parse.giveUp a) Q := by
  refine ⟨.giveUp a, ?_⟩
  intro s _ hclean
  exact absurd hclean.kept Bool.true_eq_false.mp

theorem mono (h : Gives p P) (hPQ : ∀ a, P a → Q a) : Gives p Q :=
  ⟨h.built, fun s hs hclean => hPQ _ (h.run s hs hclean)⟩

theorem bind (hp : Gives p P) (hf : ∀ a, Gives (f a) fun b => P a → R b) :
    Gives (p >>= f) R := by
  refine ⟨.bind hp.built fun a => (hf a).built, ?_⟩
  intro s hs hclean
  obtain ⟨hfirst, hsecond⟩ := Clean.of_bind hp.built (fun a => (hf a).built) hclean
  exact (hf (p s).1).run (p s).2 (hp.built.whole hs) hsecond (hp.run s hs hfirst)

/-- Whatever the first action gives. -/
theorem next [hp : Built true p] (hf : ∀ a, Gives (f a) R) : Gives (p >>= f) R :=
  bind (P := fun _ => True) ⟨hp, fun _ _ _ => trivial⟩ fun a => (hf a).mono fun _ h _ => h

theorem map {g : α → β} (hp : Gives p fun a => R (g a)) : Gives (g <$> p) R :=
  hp.bind fun _ => .pure id

theorem mapSome (hp : Gives p P) : Gives (some <$> p) fun o => ∀ a ∈ o, P a :=
  .map (hp.mono fun _ => forall_mem_some)

theorem ite {b : Prop} [Decidable b] (hp : b → Gives p Q) (hq : ¬b → Gives q Q) :
    Gives (if b then p else q) Q := by
  split
  · next hb => exact hp hb
  · next hb => exact hq hb

theorem sized {f : Nat → Parse α} (hf : ∀ n, Gives (f n) Q) : Gives (fun s => f s.size s) Q :=
  ⟨@built_sized true α f fun n => (hf n).built, fun s => (hf s.size).run s⟩

/-- An action may look at the state, as long as only the view matters. -/
theorem get {f : ParseState → Parse α} (hview : ∀ s t, s.view = t.view → f s = f t)
    (hf : ∀ s, Gives (f s) Q) : Gives (MonadState.get >>= f) Q :=
  ⟨.get hview fun s => (hf s).built, fun s => (hf s).run s⟩

/-- Behind an error there is nothing to show. -/
theorem fails [hp : Built true p] [hf : ∀ a, Built true (f a)]
    (hfail : ∀ s, s.errors < (p s).2.errors) : Gives (p >>= f) R := by
  refine ⟨.bind hp hf, ?_⟩
  intro s _ hclean
  have hfirst := (Clean.of_bind hp hf hclean).1.errors_eq
  have hlt := hfail s
  omega

/-- A problem at the current token is an error. -/
theorem faultGot {code : Code} {expected : Bytes} {f : Unit → Parse α}
    [hf : ∀ u, Built true (f u)] : Gives (Parse.faultGot code expected >>= f) Q :=
  .fails fun s => Nat.lt_succ_self s.errors

theorem fault_last {code : Code} {message : Bytes} {Q : Unit → Prop} :
    Gives (Parse.fault code message) Q := by
  refine ⟨inferInstance, ?_⟩
  intro s _ hclean
  exact absurd hclean.errors_eq (Nat.ne_of_gt (fault_errors code message s))

theorem fault {code : Code} {message : Bytes} {f : Unit → Parse α} [hf : ∀ u, Built true (f u)] :
    Gives (Parse.fault code message >>= f) Q := .fails (fault_errors code message)

/-- Something that may be missing has been read if a test says so. -/
theorem orNone {b : Prop} [Decidable b] {g : Option α → Parse β} (hp : Gives p P)
    (hg : ∀ o, Gives (g o) fun c => (∀ a ∈ o, P a) → R c) :
    Gives (if b then p >>= fun a => g (some a) else g none) R := by
  refine .ite (fun _ => hp.bind fun a => ?_) fun _ => (hg none).mono fun c hc => hc (by simp)
  exact (hg (some a)).mono fun c hc ha => hc (forall_mem_some ha)

/-! ## Looking and moving -/

theorem current : Gives Parse.current Token.Whole :=
  ⟨built_current, fun _ hs _ => hs.current⟩

/-- A token of one of some kinds is read if it is there. -/
theorem token {ks : List Kind} {f : Bool → Parse β} {g : Token → Parse β}
    (hf : f true = (advance >>= g)) (heof : .eof ∉ ks)
    (hg : ∀ t, Gives (g t) fun b => (Expr.leafOf t).Present → R b) (hnone : Gives (f false) R) :
    Gives (isAtAny ks >>= f) R := by
  have hread : Built true (f true) := hf ▸ .bind .advance fun t => (hg t).built
  refine ⟨.bind inferInstance fun b => ?_, ?_⟩
  · cases b with
    | true => exact hread
    | false => exact hnone.built
  · intro s hs hclean
    change s.Clean (f (ks.contains s.kind) s).2 at hclean
    change R (f (ks.contains s.kind) s).1
    cases hks : ks.contains s.kind with
    | false =>
        rw [hks] at hclean
        exact hnone.run s hs hclean
    | true =>
        rw [hks, hf] at hclean
        rw [hf]
        have hkind : s.kind ≠ .eof := fun h => heof (h ▸ List.contains_iff_mem.mp hks)
        obtain ⟨-, hsecond⟩ := Clean.of_bind .advance (fun t => (hg t).built) hclean
        have htoken : (advance s).1 = s.current := (ParseState.leaves_advance hkind).2
        refine (hg (advance s).1).run (advance s).2 (built_advance.whole hs) hsecond ?_
        rw [htoken]
        exact hs.current.present hkind

theorem accept? {k : Kind} {f : Option Token → Parse β} (heof : k ≠ .eof)
    (hsome : ∀ t, Gives (f (some t)) fun b => (Expr.leafOf t).Present → R b)
    (hnone : Gives (f none) R) : Gives (Parse.accept? k >>= f) R := by
  rw [accept?_bind, isAt_eq_isAtAny]
  exact .token rfl (by simpa using heof.symm) hsome hnone

end Gives

/-! ## Repetition -/

section

variable {P : α → Prop}

theorem gives_manyN {stops : List Kind} {item : Parse (Option α)}
    (hitem : Gives item fun o => ∀ a ∈ o, P a) (fuel : Nat) :
    Gives (manyN stops item fuel) fun xs => ∀ x ∈ xs, P x := by
  induction fuel with
  | zero =>
      unfold manyN
      exact .giveUp
  | succ fuel ih =>
      unfold manyN
      refine .next fun atStop => .next fun atEnd => .ite (fun _ => .pure (by simp)) fun _ => ?_
      refine .get (fun s t h => by simp only [ParseState.size_eq_of_view h]) fun before => ?_
      refine hitem.bind fun x => ?_
      refine .get (fun s t h => by simp only [ParseState.size_eq_of_view h]) fun after => ?_
      extract_lets -underBinder next
      have hnext (u : PUnit) :
          Gives (next u) fun xs => (∀ a ∈ x, P a) → ∀ a ∈ xs, P a := by
        refine ih.bind fun xs => .pure fun hxs hx => ?_
        exact List.forall_mem_append.mpr ⟨fun a ha => hx a (Option.mem_toList.mp ha), hxs⟩
      clear_value next
      exact .ite (fun _ => .next hnext) fun _ => hnext ⟨⟩

theorem gives_many {stops : List Kind} {item : Parse (Option α)}
    (hitem : Gives item fun o => ∀ a ∈ o, P a) :
    Gives (many stops item) fun xs => ∀ x ∈ xs, P x := .sized (gives_manyN hitem)

theorem gives_afterEachN {sep : Kind} {item : Parse α} (hitem : Gives item P) (fuel : Nat) :
    Gives (afterEachN sep item fuel) fun xs => ∀ x ∈ xs, P x := by
  induction fuel with
  | zero =>
      unfold afterEachN
      exact .giveUp
  | succ fuel ih =>
      unfold afterEachN
      refine .next fun more => .ite (fun _ => .pure (by simp)) fun _ => ?_
      refine hitem.bind fun x => ih.bind fun xs => .pure fun hxs hx => ?_
      exact List.forall_mem_cons.mpr ⟨hx, hxs⟩

theorem gives_sepBy {sep : Kind} {item : Parse α} (hitem : Gives item P) :
    Gives (sepBy sep item) (AtLeastOne P) := by
  unfold sepBy
  refine hitem.bind fun x => (Gives.sized (gives_afterEachN hitem)).bind fun xs => ?_
  exact .pure fun hxs hx => .cons hx hxs

/-- Behind a separator there is an item again, as an item that fails is an error. -/
theorem gives_sepBySomeN {sep : Kind} {item : Parse (Option α)}
    (hitem : Gives item fun o => ∃ a ∈ o, P a) (fuel : Nat) :
    Gives (sepBySomeN sep item fuel) (AtLeastOne P) := by
  induction fuel with
  | zero =>
      unfold sepBySomeN
      exact .giveUp
  | succ fuel ih =>
      unfold sepBySomeN
      refine hitem.bind fun o => ?_
      cases o with
      | none => exact .pure (by simp)
      | some x =>
          have hread (h : ∃ a ∈ some x, P a) : P x := by simpa using h
          refine .next fun more => .ite (fun _ => .pure fun hx => .single (hread hx)) fun _ => ?_
          refine ih.bind fun xs => .pure fun hxs hx => ?_
          exact .cons (hread hx) hxs.2

theorem gives_sepBySome {sep : Kind} {item : Parse (Option α)}
    (hitem : Gives item fun o => ∃ a ∈ o, P a) : Gives (sepBySome sep item) (AtLeastOne P) :=
  .sized fun n => gives_sepBySomeN hitem (n + 1)

theorem gives_rowsN {sep : Kind} {row : RowTrivia → Parse α} {setInline : α → Bytes → α}
    (hrow : ∀ t, Gives (row t) P) (hinline : ∀ x text, P x → P (setInline x text)) (fuel : Nat) :
    Gives (rowsN sep row setInline fuel) fun xs => ∀ x ∈ xs, P x := by
  induction fuel with
  | zero =>
      unfold rowsN
      exact .giveUp
  | succ fuel ih =>
      unfold rowsN
      refine .next fun atEnd => .ite (fun _ => .pure (by simp)) fun _ => .next fun t => ?_
      refine (hrow t).bind fun x => .next fun more => .next fun text => .ite (fun _ => ?_) ?_
      · exact .pure fun hx => by simpa using hinline x text hx
      · refine fun _ => ih.bind fun xs => .pure fun hxs hx => ?_
        exact List.forall_mem_cons.mpr ⟨hinline x text hx, hxs⟩

theorem gives_rows {sep : Kind} {row : RowTrivia → Parse α} {setInline : α → Bytes → α}
    (hrow : ∀ t, Gives (row t) P) (hinline : ∀ x text, P x → P (setInline x text)) :
    Gives (rows sep row setInline) fun xs => ∀ x ∈ xs, P x := .sized (gives_rowsN hrow hinline)

end

/-! ## Names -/

theorem gives_ident? : Gives ident? fun o => ∃ name ∈ o, name ≠ [] := by
  unfold ident?
  exact .token rfl (by decide) (fun t => .pure fun ht => ⟨t.text, rfl, ht.text⟩) .faultGot

theorem gives_ident : Gives ident (· ≠ []) := by
  unfold ident
  refine .bind gives_ident? fun o => .pure ?_
  rintro ⟨name, rfl, hname⟩
  exact hname

theorem gives_identList : Gives identList Named := gives_sepBySome gives_ident?

end Parse

end VhdlStyle
