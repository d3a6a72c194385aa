import VhdlStyle.Proofs.Parsing.Actions
import VhdlStyle.Proofs.Parsing.Visits
import VhdlStyle.Proofs.Tokens.Spelling

/-! # What a run without errors reads

`Reads A R p S` speaks of the runs of an action that report no error: from a state with `A`, after
words with `R`, the words are read that bring about `S`. The rules follow the way an action is put
together; behind a reported error, or the bound of a loop, it says nothing. -/

namespace VhdlStyle

open Parse

namespace ParseState

/-- The words still to be read are well spelled. -/
def WellSpelled (s : ParseState) : Prop := ∀ w ∈ s.leaves, w.WellSpelled

theorem WellSpelled.of_append {s t : ParseState} {new : List Leaf} (h : s.WellSpelled)
    (hleaves : s.leaves = new ++ t.leaves) : t.WellSpelled := by
  intro w hw
  refine h w ?_
  rw [hleaves]
  exact List.mem_append_right new hw

/-- No error has been reported between the two states, and no loop has given up. -/
structure Clean (s t : ParseState) : Prop where
  errors_eq : t.errors = s.errors
  kept : t.gaveUp = false

/-- The current token is the first of the words. -/
theorem leaves_advance {s : ParseState} (h : s.kind ≠ .eof) :
    s.leaves = Expr.leafOf s.current :: (advance s).2.leaves ∧ (advance s).1 = s.current := by
  cases hrest : s.rest with
  | nil => exact absurd (by rw [kind, current, hrest]; rfl) h
  | cons t rest =>
      have hcurrent : s.current = t := by rw [current, hrest]; rfl
      have hkind : (t.kind == .eof) = false := by
        rw [kind, hcurrent] at h
        exact beq_false_of_ne h
      rw [advance, hrest]
      dsimp only
      rw [hkind]
      exact ⟨by rw [leaves, hrest, hcurrent]; rfl, hcurrent.symm⟩

theorem kind_advance {s : ParseState} (h : s.kind ≠ .eof) :
    (advance s).2.kind = s.kindAhead 1 := by
  cases hrest : s.rest with
  | nil => exact absurd (by rw [kind, current, hrest]; rfl) h
  | cons t rest =>
      have hkind : (t.kind == .eof) = false := by
        rw [kind, current, hrest] at h
        exact beq_false_of_ne h
      rw [advance, hrest]
      dsimp only
      rw [hkind, kindAhead, hrest]
      cases rest <;> rfl

theorem wellSpelled_current {s : ParseState} (h : s.WellSpelled) (hkind : s.kind ≠ .eof) :
    (Expr.leafOf s.current).WellSpelled := by
  refine h _ ?_
  rw [(leaves_advance hkind).1]
  exact List.mem_cons_self

end ParseState

namespace Parse

variable {α β : Type}

/-- No condition on a state. -/
abbrev Anywhere : ParseState → Prop := fun _ => True

/-- Runs without errors from states with `A`, after words with `R`, read words that bring about
`S`. -/
structure Reads (A : ParseState → Prop) (R : List Leaf → Prop) (p : Parse α)
    (S : α → List Leaf → Prop) : Prop where
  built : Built true p
  run : ∀ (s : ParseState) (ws : List Leaf), s.WellSpelled → A s → R ws → s.Clean (p s).2 →
    ∃ new, s.leaves = new ++ (p s).2.leaves ∧ S (p s).1 (ws ++ new)

/-- The two halves of a run without errors have none. -/
theorem Clean.of_bind {p : Parse α} {f : α → Parse β} (hp : Built true p)
    (hf : ∀ a, Built true (f a)) {s : ParseState} (h : s.Clean ((p >>= f) s).2) :
    s.Clean (p s).2 ∧ (p s).2.Clean (f (p s).1 (p s).2).2 := by
  have hfirst := hp.errors_le s
  have hsecond := (hf (p s).1).errors_le (p s).2
  have herrors : (f (p s).1 (p s).2).2.errors = s.errors := h.errors_eq
  have hkept : (f (p s).1 (p s).2).2.gaveUp = false := h.kept
  obtain ⟨visited, hvisits⟩ := (hf (p s).1).visits (p s).2
  exact ⟨⟨by omega, (hvisits.kept hkept).1⟩, ⟨by omega, hkept⟩⟩

namespace Reads

variable {A B : ParseState → Prop} {R Q : List Leaf → Prop} {p q : Parse α} {f : α → Parse β}
  {S T : α → List Leaf → Prop} {U : β → List Leaf → Prop}

/-! ## Composition -/

theorem pure {a : α} (h : ∀ ws, R ws → S a ws) : Reads A R (pure a) S := by
  refine ⟨.pure a, ?_⟩
  intro s ws _ _ hws _
  refine ⟨[], rfl, ?_⟩
  rw [List.append_nil]
  exact h ws hws

theorem giveUp {a : α} : Reads A R (Parse.giveUp a) S := by
  refine ⟨.giveUp a, ?_⟩
  intro s ws _ _ _ hclean
  exact absurd hclean.kept Bool.true_eq_false.mp

theorem bind (hp : Reads A R p S) (hf : ∀ a, Reads Anywhere (S a) (f a) U) :
    Reads A R (p >>= f) U := by
  refine ⟨.bind hp.built fun a => (hf a).built, ?_⟩
  intro s ws hs hA hws hclean
  obtain ⟨hfirst, hsecond⟩ := Clean.of_bind hp.built (fun a => (hf a).built) hclean
  obtain ⟨new, hnew, hS⟩ := hp.run s ws hs hA hws hfirst
  obtain ⟨more, hmore, hU⟩ :=
    (hf (p s).1).run (p s).2 (ws ++ new) (hs.of_append hnew) trivial hS hsecond
  refine ⟨new ++ more, ?_, ?_⟩
  · rw [hnew, hmore, List.append_assoc]
    rfl
  · rw [← List.append_assoc]
    exact hU

theorem narrow (h : Reads A R p S) (hA : ∀ s, B s → A s) : Reads B R p S := by
  refine ⟨h.built, ?_⟩
  intro s ws hs hB
  exact h.run s ws hs (hA s hB)

theorem after (h : Reads A R p S) (hR : ∀ ws, Q ws → R ws) : Reads A Q p S := by
  refine ⟨h.built, ?_⟩
  intro s ws hs hA hws
  exact h.run s ws hs hA (hR ws hws)

/-- A condition that says nothing of the words is known from then on. -/
theorem known {c : Prop} [hp : Built true p] (h : c → Reads A R p S) :
    Reads A (fun ws => R ws ∧ c) p S := by
  refine ⟨hp, ?_⟩
  intro s ws hs hA hws hclean
  exact (h hws.2).run s ws hs hA hws.1 hclean

theorem ite {b : Prop} [Decidable b] (hp : b → Reads A R p S) (hq : ¬b → Reads A R q S) :
    Reads A R (if b then p else q) S := by
  split
  · next hb => exact hp hb
  · next hb => exact hq hb

/-- An action may depend on how many tokens are left. -/
theorem sized {f : Nat → Parse α} (hf : ∀ n, Reads A R (f n) S) :
    Reads A R (fun s => f s.size s) S :=
  ⟨@built_sized true α f fun n => (hf n).built, fun s => (hf s.size).run s⟩

/-- Behind an error there is nothing to show. -/
theorem fails [hp : Built true p] [hf : ∀ a, Built true (f a)]
    (hfail : ∀ s, s.errors < (p s).2.errors) : Reads A R (p >>= f) U := by
  refine ⟨.bind hp hf, ?_⟩
  intro s ws _ _ _ hclean
  have hfirst := (Clean.of_bind hp hf hclean).1.errors_eq
  have hlt := hfail s
  omega

/-- What an action reads does not depend on the words before. -/
theorem frame (h : Reads A (· = []) p S) :
    Reads A R p fun a ws => ∃ before new, ws = before ++ new ∧ R before ∧ S a new := by
  refine ⟨h.built, ?_⟩
  intro s ws hs hA hws hclean
  obtain ⟨new, hnew, hS⟩ := h.run s [] hs hA rfl hclean
  exact ⟨new, hnew, ws, new, rfl, hws, hS⟩

/-! ## Looking and moving -/

/-- A value that is read off the state. -/
theorem observe [hp : Built true p] (g : ParseState → α) (heq : ∀ s, p s = (g s, s))
    (hf : ∀ a, Reads (fun s => A s ∧ g s = a) R (f a) U) : Reads A R (p >>= f) U := by
  refine ⟨.bind hp fun a => (hf a).built, ?_⟩
  intro s ws hs hA hws hclean
  have hrun : (p >>= f) s = f (g s) s := by
    change f (p s).1 (p s).2 = _
    rw [heq]
  rw [hrun] at hclean ⊢
  exact (hf (g s)).run s ws hs ⟨hA, rfl⟩ hws hclean

theorem isAt {k : Kind} {f : Bool → Parse β}
    (hf : ∀ b, Reads (fun s => A s ∧ (s.kind == k) = b) R (f b) U) :
    Reads A R (Parse.isAt k >>= f) U := .observe _ (fun _ => rfl) hf

theorem isAtAny {ks : List Kind} {f : Bool → Parse β}
    (hf : ∀ b, Reads (fun s => A s ∧ ks.contains s.kind = b) R (f b) U) :
    Reads A R (Parse.isAtAny ks >>= f) U := .observe _ (fun _ => rfl) hf

theorem kind {f : Kind → Parse β} (hf : ∀ k, Reads (fun s => A s ∧ s.kind = k) R (f k) U) :
    Reads A R (Parse.kind >>= f) U := .observe _ (fun _ => rfl) hf

theorem kindAhead {n : Nat} {f : Kind → Parse β}
    (hf : ∀ k, Reads (fun s => A s ∧ s.kindAhead n = k) R (f k) U) :
    Reads A R (Parse.kindAhead n >>= f) U := .observe _ (fun _ => rfl) hf

theorem current {f : Token → Parse β}
    (hf : ∀ t, Reads (fun s => A s ∧ s.current = t) R (f t) U) :
    Reads A R (Parse.current >>= f) U := .observe _ (fun _ => rfl) hf

/-- A token is read; the state behind it is known as well. -/
theorem take {P : Token → ParseState → Prop} {f : Token → Parse β}
    [hb : ∀ t, Built true (f t)] (hA : ∀ s, A s → s.kind ≠ .eof)
    (hP : ∀ s, A s → P s.current (advance s).2)
    (hf : ∀ t, (Expr.leafOf t).WellSpelled → Reads (P t)
      (fun ws => ∃ before, R before ∧ ws = before ++ [Expr.leafOf t]) (f t) U) :
    Reads A R (Parse.advance >>= f) U := by
  refine ⟨.bind .advance hb, ?_⟩
  intro s ws hs hstate hws hclean
  obtain ⟨hleaves, htoken⟩ := ParseState.leaves_advance (hA s hstate)
  obtain ⟨-, hsecond⟩ := Clean.of_bind .advance hb hclean
  have hrun : (Parse.advance >>= f) s = f s.current (Parse.advance s).2 := by
    change f (Parse.advance s).1 (Parse.advance s).2 = _
    rw [htoken]
  rw [htoken] at hsecond
  rw [hrun]
  have hsplit : s.leaves = [Expr.leafOf s.current] ++ (Parse.advance s).2.leaves := hleaves
  have hafter : (Parse.advance s).2.WellSpelled := hs.of_append hsplit
  obtain ⟨new, hnew, hU⟩ :=
    (hf s.current (ParseState.wellSpelled_current hs (hA s hstate))).run _
      (ws ++ [Expr.leafOf s.current]) hafter (hP s hstate) ⟨ws, hws, rfl⟩ hsecond
  refine ⟨Expr.leafOf s.current :: new, ?_, ?_⟩
  · rw [hleaves, hnew, List.cons_append]
  · rw [List.append_assoc] at hU
    exact hU

/-- What is known of every state is known. -/
theorem assume {c : Prop} [hp : Built true p] (h : c → Reads Anywhere R p S) :
    Reads (fun _ => c) R p S := by
  refine ⟨hp, ?_⟩
  intro s ws hs hc hws hclean
  exact (h hc).run s ws hs trivial hws hclean

/-- A token of one of some kinds is read. -/
theorem token {K : List Kind} {f : Token → Parse β} {Q : Token → List Leaf → Prop}
    [hb : ∀ t, Built true (f t)] (hK : .eof ∉ K) (hA : ∀ s, A s → s.kind ∈ K)
    (hR : ∀ t ws, t.kind ∈ K → (Expr.leafOf t).WellSpelled → R ws →
      Q t (ws ++ [Expr.leafOf t]))
    (hf : ∀ t, t.kind ∈ K → Reads Anywhere (Q t) (f t) U) :
    Reads A R (Parse.advance >>= f) U := by
  have hkind : ∀ s, A s → s.kind ≠ .eof := fun s hs heof => hK (heof ▸ hA s hs)
  refine .take (P := fun t _ => t.kind ∈ K) hkind hA fun t hspelled => .assume fun ht => ?_
  refine (hf t ht).after ?_
  rintro ws ⟨before, hbefore, rfl⟩
  exact hR t before ht hspelled hbefore

/-- A choice by the kind of the current token. -/
theorem atAny {K : List Kind} {f : Bool → Parse β}
    (htrue : Reads (fun s => A s ∧ s.kind ∈ K) R (f true) U) (hfalse : Reads A R (f false) U) :
    Reads A R (Parse.isAtAny K >>= f) U := by
  refine .isAtAny fun b => ?_
  cases b with
  | true => exact htrue.narrow fun s hs => ⟨hs.1, List.contains_iff_mem.mp hs.2⟩
  | false => exact hfalse.narrow fun s hs => hs.1

/-- A token that has been looked at is skipped. -/
theorem skipToken {t : Token} {f : Unit → Parse β} (hA : ∀ s, A s → s.current = t ∧ s.kind ≠ .eof)
    (hR : ∀ ws, (Expr.leafOf t).WellSpelled → R ws → Q (ws ++ [Expr.leafOf t]))
    (hf : Reads Anywhere Q (f ()) U) : Reads A R (Parse.skip >>= f) U := by
  have hbuilt : Built true (f ()) := hf.built
  refine take (f := fun _ => f ()) (P := fun u _ => u = t) (fun s hs => (hA s hs).2)
    (fun s hs => (hA s hs).1) fun u hspelled => .assume fun hu => ?_
  subst hu
  refine hf.after ?_
  rintro ws ⟨before, hbefore, rfl⟩
  exact hR before hspelled hbefore

section

variable {k : Kind}

/-- A token of a kind that has been looked at is skipped; the state behind it is known as well. -/
theorem skipKind {f : Unit → Parse β} (hk : k ≠ .eof) (hA : ∀ s, A s → s.kind = k)
    (hB : ∀ s, A s → B (Parse.advance s).2)
    (hR : ∀ t ws, t.kind = k → (Expr.leafOf t).WellSpelled → R ws → Q (ws ++ [Expr.leafOf t]))
    (hf : Reads B Q (f ()) U) : Reads A R (Parse.skip >>= f) U := by
  have hbuilt : Built true (f ()) := hf.built
  refine take (f := fun _ => f ()) (P := fun t s => t.kind = k ∧ B s) (fun s hs => hA s hs ▸ hk)
    (fun s hs => ⟨hA s hs, hB s hs⟩) fun t hspelled => ⟨hf.built, ?_⟩
  rintro s ws hs ⟨ht, hstate⟩ ⟨before, hbefore, rfl⟩ hclean
  exact hf.run s _ hs hstate (hR t before ht hspelled hbefore) hclean

/-- A token of a kind that may be there. -/
theorem accept? {f : Option Token → Parse β} {Q : Token → List Leaf → Prop}
    [hb : ∀ t, Built true (f (some t))] (hk : k ≠ .eof)
    (hR : ∀ t ws, t.kind = k → (Expr.leafOf t).WellSpelled → R ws → Q t (ws ++ [Expr.leafOf t]))
    (hsome : ∀ t, t.kind = k → Reads Anywhere (Q t) (f (some t)) U)
    (hnone : Reads A R (f none) U) : Reads A R (Parse.accept? k >>= f) U := by
  rw [accept?_bind]
  refine .isAt fun b => .ite (fun hb => ?_) fun _ => ?_
  · subst hb
    refine .token (K := [k]) (Q := Q) (by simpa using hk.symm) ?_ ?_ ?_
    · intro s hs
      simpa using hs.2
    · intro t ws ht
      exact hR t ws (List.mem_singleton.mp ht)
    · intro t ht
      exact hsome t (List.mem_singleton.mp ht)
  · exact hnone.narrow fun s hs => hs.1

/-- As `accept?`, where it only matters that the token is there. -/
theorem accept {f : Bool → Parse β} (hk : k ≠ .eof)
    (hR : ∀ t ws, t.kind = k → (Expr.leafOf t).WellSpelled → R ws → Q (ws ++ [Expr.leafOf t]))
    (htrue : Reads Anywhere Q (f true) U) (hfalse : Reads A R (f false) U) :
    Reads A R (Parse.accept k >>= f) U := by
  have heq : (Parse.accept k >>= f) = Parse.accept? k >>= fun o => f o.isSome := by
    rw [Parse.accept, bind_assoc]
    rfl
  rw [heq]
  exact @Reads.accept? _ _ _ _ _ _ (fun _ => Q) (fun _ => htrue.built) hk hR (fun _ _ => htrue) hfalse

/-- A token of a kind that has to be there. -/
theorem expect_ {code : Code} {expected : Bytes} {f : Unit → Parse β} (hk : k ≠ .eof)
    (hR : ∀ t ws, t.kind = k → (Expr.leafOf t).WellSpelled → R ws → Q (ws ++ [Expr.leafOf t]))
    (hf : Reads Anywhere Q (f ()) U) : Reads A R (Parse.expect_ k code expected >>= f) U := by
  have hbuilt : Built true (f ()) := hf.built
  have heq : (Parse.expect_ k code expected >>= f) =
      Parse.expect k code expected >>= fun _ => f () := by
    rw [Parse.expect_, bind_assoc]
    rfl
  rw [heq, expect_bind]
  refine .isAt fun b => .ite (fun hb => ?_) fun _ => .fails fun s => Nat.lt_succ_self s.errors
  subst hb
  refine .token (Q := fun _ => Q) (K := [k]) (by simpa using hk.symm) ?_ ?_ fun _ _ => hf
  · intro s hs
    simpa using hs.2
  · intro t ws ht
    exact hR t ws (List.mem_singleton.mp ht)

end

end Reads

end Parse

end VhdlStyle
