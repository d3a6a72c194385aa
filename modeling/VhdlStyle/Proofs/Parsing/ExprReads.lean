import VhdlStyle.Proofs.Parsing.ExprTermination
import VhdlStyle.Proofs.Parsing.ExprWords
import VhdlStyle.Proofs.Parsing.Reads
import VhdlStyle.Proofs.Spacing.Runs

/-! # Expressions keep their words and bind them

What an expression is read from are its words, and its operators bind the way they were read: by
induction on the depth of nesting, with one lemma for each level of operators. -/

namespace VhdlStyle.Expr

open Parse

/-- Whatever words come before, the words read are those of an expression whose operators bind,
its own at level `n` at least. -/
def ReadsAt (n : Nat) (A : ParseState → Prop) (p : Parse Expr) : Prop :=
  ∀ ws, Reads A (Restored ws) p fun x ts => Restored (ws ++ x.words) ts ∧ x.Bound n

variable {n : Nat} {A : ParseState → Prop} {ops : List Kind}

/-- A leaf of a single word. -/
theorem bound_leaf (l : Leaf) : (Expr.leaf l).Bound 7 := ⟨rfl, Nat.le_refl 7⟩

/-- A delimiter that has been looked at is skipped. -/
theorem reads_mark {α : Type} {k : Kind} (hk : k ∈ Leaf.markKinds) {B : ParseState → Prop}
    (hA : ∀ s, A s → s.kind = k ∧ B (advance s).2) {ws : List Leaf} {f : Unit → Parse α}
    {U : α → List Leaf → Prop} (hf : Reads B (Restored (ws ++ [.mark k])) (f ()) U) :
    Reads A (Restored ws) (skip >>= f) U := by
  have hne : k ≠ .eof := by
    rintro rfl
    exact absurd hk (by decide)
  exact .skipKind hne (fun s hs => (hA s hs).1) (fun s hs => (hA s hs).2)
    (fun t ts hkind hspelled h => h.concat_mark hkind hk hspelled) hf

/-! ## Operators -/

/-- The end token is no operator. -/
theorem eof_not_mem (hlevel : ∀ k ∈ ops, k.level = n) (hn : n < 7) : .eof ∉ ops := by
  intro hmem
  have hlow : Kind.eof.level = 7 := by decide
  have hop := hlevel _ hmem
  omega

section

variable {operand : Parse Expr} [Wordwise true operand]

/-- The operands of a chain are of a higher level; the chain grows to the left. -/
theorem reads_parseChainN (hlevel : ∀ k ∈ ops, k.level = n ∧ k.chains = true) (hn : n < 7)
    (hoperand : ReadsAt (n + 1) Anywhere operand) (fuel : Nat) {x : Expr} (hx : x.Bound n)
    (ws : List Leaf) :
    Reads A (Restored (ws ++ x.words)) (parseChainN ops operand fuel x) fun y ts =>
      Restored (ws ++ y.words) ts ∧ y.Bound n := by
  have heof : .eof ∉ ops := eof_not_mem (fun k hk => (hlevel k hk).1) hn
  induction fuel generalizing x A with
  | zero => exact .giveUp
  | succ fuel ih =>
      rw [parseChainN]
      refine .atAny (.token heof (fun s hs => hs.2) (fun op ts _ _ h => h.concat (leafOf op))
        fun op hop => ?_) (.pure fun ts h => ⟨h, hx⟩)
      refine (hoperand _).bind fun y => .known fun hy => ?_
      have hnext := ih (A := Anywhere) (x := .binary (leafOf op) x y)
        (.chain (hlevel _ hop).1 hn (hlevel _ hop).2 hx hy)
      simpa [words] using hnext

theorem reads_parseChain (hlevel : ∀ k ∈ ops, k.level = n ∧ k.chains = true) (hn : n < 7)
    (hoperand : ReadsAt (n + 1) Anywhere operand) {x : Expr} (hx : x.Bound n) (ws : List Leaf) :
    Reads A (Restored (ws ++ x.words)) (parseChain ops operand x) fun y ts =>
      Restored (ws ++ y.words) ts ∧ y.Bound n :=
  .sized fun fuel => reads_parseChainN hlevel hn hoperand fuel hx ws

theorem readsAt_parsePair (hlevel : ∀ k ∈ ops, k.level = n) (hn : n < 7)
    (hoperand : ReadsAt (n + 1) Anywhere operand) : ReadsAt n Anywhere (parsePair ops operand) := by
  have heof : .eof ∉ ops := eof_not_mem hlevel hn
  intro ws
  rw [parsePair]
  refine (hoperand ws).bind fun x => .known fun hx => ?_
  refine .atAny (.token heof (fun s hs => hs.2) (fun op ts _ _ h => h.concat (leafOf op))
    fun op hop => ?_) (.pure fun ts h => ⟨h, hx.mono (Nat.le_succ n)⟩)
  refine (hoperand _).bind fun y => .known fun hy => .pure fun ts h => ?_
  exact ⟨by simpa [words] using h, .pair (hlevel _ hop) hn hx hy⟩

end

/-! ## Names -/

/-- A token of the kinds looked for is not the end token. -/
theorem kind_ne_eof {K : List Kind} (hK : .eof ∉ K) {s : ParseState} {t : Token}
    (ht : t.isAny K = true) (hs : s.current = t) : s.kind ≠ .eof := by
  intro heof
  have hkind : t.kind = .eof := hs ▸ heof
  rw [Token.isAny, hkind, List.contains_iff_mem] at ht
  exact hK ht

theorem reads_parseAttributeName (ws : List Leaf) :
    Reads A (Restored ws) parseAttributeName fun name ts => Restored (ws ++ [name]) ts := by
  rw [parseAttributeName]
  refine .current fun t => .ite (fun hname => ?_) fun _ => .fails fun s => Nat.lt_succ_self s.errors
  refine .skipToken ?_ (fun ts _ h => h.concat (leafOf t)) (.pure fun _ h => h)
  intro s hs
  refine ⟨hs.2, ?_⟩
  intro heof
  have hkind : t.kind = .eof := hs.2 ▸ heof
  rw [Token.isIdent, Token.isKeyword, hkind] at hname
  exact absurd hname (by decide)

/-- Reading goes on behind any name that binds. -/
def GoesOn (ws : List Leaf) (more : Expr → Parse Expr) : Prop :=
  ∀ y : Expr, y.Bound 7 → Reads Anywhere (Restored (ws ++ y.words)) (more y) fun z ts =>
    Restored (ws ++ z.words) ts ∧ z.Bound 7

section

variable {x : Expr} (hx : x.Bound 7) {ws : List Leaf} {more : Expr → Parse Expr}
  (hmore : GoesOn ws more)

include hx hmore

theorem reads_selection (hA : ∀ s, A s → s.kind = .dot) :
    Reads A (Restored (ws ++ x.words)) (do
      skip
      let t ← current
      if !t.isAny [.ident, .extIdent, .kwAll, .charLit, .stringLit] then
        faultGot .expectIdentifier "expected suffix after '.'"
        return x
      skip
      more (.selected x (leafOf t))) fun y ts => Restored (ws ++ y.words) ts ∧ y.Bound 7 := by
  refine reads_mark (B := Anywhere) (by decide) (fun s hs => ⟨hA s hs, trivial⟩) ?_
  refine .current fun t => .ite (fun _ => .fails fun s => Nat.lt_succ_self s.errors)
    fun hsuffix => ?_
  have hany : t.isAny [.ident, .extIdent, .kwAll, .charLit, .stringLit] = true := by
    simpa using hsuffix
  refine .skipToken (fun s hs => ⟨hs.2, kind_ne_eof (by decide) hany hs.2⟩)
    (fun ts _ h => h.concat (leafOf t)) ?_
  simpa [words] using hmore (.selected x (leafOf t)) ⟨hx.wellBound, Nat.le_refl 7⟩

theorem reads_attribute (hA : ∀ s, A s → s.kind = .tick) :
    Reads A (Restored (ws ++ x.words)) (do
      skip
      more (.attribute x (← parseAttributeName))) fun y ts =>
        Restored (ws ++ y.words) ts ∧ y.Bound 7 := by
  refine reads_mark (B := Anywhere) (by decide) (fun s hs => ⟨hA s hs, trivial⟩) ?_
  refine (reads_parseAttributeName _).bind fun name => ?_
  simpa [words] using hmore (.attribute x name) ⟨hx.wellBound, Nat.le_refl 7⟩

end

/-! ## Words of their own -/

theorem reads_leaf {t : Token} (hA : ∀ s, A s → s.current = t ∧ s.kind ≠ .eof) (ws : List Leaf) :
    Reads A (Restored ws) (skip >>= fun _ => pure (Expr.leaf (leafOf t))) fun x ts =>
      Restored (ws ++ x.words) ts ∧ x.Bound 7 := by
  refine .skipToken hA (fun ts hspelled h => ?_) (.pure fun ts h => ⟨h, bound_leaf (leafOf t)⟩)
  rw [words, hspelled.words_eq]
  exact h.concat (leafOf t)

/-- A number, and its unit if one follows. -/
theorem reads_number {t : Token} (ht : t.kind ∈ Leaf.quantityKinds)
    (hA : ∀ s, A s → s.current = t ∧ s.kind ≠ .eof) (ws : List Leaf) :
    Reads A (Restored ws) (do
      skip
      match ← accept? .ident with
      | some unit => return Expr.leaf ⟨t.kind, List.flatten [t.text, " ", unit.text]⟩
      | none => return Expr.leaf (leafOf t)) fun x ts =>
        Restored (ws ++ x.words) ts ∧ x.Bound 7 := by
  refine .skipToken hA (Q := fun ts => Restored (ws ++ [leafOf t]) ts ∧ (leafOf t).WellSpelled)
    (fun ts hspelled h => ⟨h.concat (leafOf t), hspelled⟩) ?_
  refine .accept? (by decide)
    (Q := fun unit ts => Restored (ws ++ [leafOf t] ++ [leafOf unit]) ts ∧ (leafOf t).WellSpelled)
    (fun unit ts _ _ h => ⟨h.1.concat (leafOf unit), h.2⟩) ?_ ?_
  · intro unit hunit
    refine .pure fun ts h => ⟨?_, bound_leaf _⟩
    have hphysical : Leaf.words ⟨t.kind, (leafOf t).text ++ Bytes.space :: unit.text⟩ =
        [leafOf t, ⟨.ident, unit.text⟩] := h.2.words_physical ht unit.text
    have hspace : (" " : Bytes) = [Bytes.space] := by decide
    have htext : List.flatten [t.text, " ", unit.text] =
        (leafOf t).text ++ Bytes.space :: unit.text := by
      simp [leafOf, hspace]
    have hleaf : leafOf unit = ⟨.ident, unit.text⟩ := by rw [leafOf, hunit]
    have hrestored := h.1
    rw [hleaf, List.append_assoc] at hrestored
    rw [words, htext, hphysical]
    exact hrestored
  · refine .pure fun ts h => ⟨?_, bound_leaf _⟩
    rw [words, h.2.words_eq]
    exact h.1

theorem reads_parseAllocatorsN (fuel : Nat) (ws : List Leaf) :
    Reads A (Restored ws) (parseAllocatorsN fuel) fun ls ts => Restored (ws ++ ls) ts := by
  induction fuel generalizing ws A with
  | zero => exact .giveUp
  | succ fuel ih =>
      rw [parseAllocatorsN]
      refine .accept? (by decide) (Q := fun t => Restored (ws ++ [leafOf t]))
        (fun t ts _ _ h => h.concat (leafOf t)) ?_ (.pure fun ts h => by simpa using h)
      intro t _
      refine (ih _).bind fun ls => .pure fun ts h => ?_
      simpa using h

/-- Allocators stand in front of what they allocate. -/
theorem words_allocators (ls : List Leaf) (x : Expr) :
    (ls.foldr Expr.unary x).words = ls ++ x.words := by
  induction ls with
  | nil => rfl
  | cons l ls ih => rw [List.foldr_cons, words, ih, List.cons_append]

theorem bound_allocators (ls : List Leaf) {x : Expr} (hx : x.Bound 7) :
    (ls.foldr Expr.unary x).Bound 7 := by
  induction ls with
  | nil => exact hx
  | cons l ls ih => exact ⟨ih.wellBound, Nat.le_refl 7⟩

/-! ## Lists -/

/-- The tokens are list elements; behind the last there may be a comma. -/
def ListRestored (args : List Assoc) (ts : List Leaf) : Prop :=
  Restored (listWords args) ts ∨
    args ≠ [] ∧ ∃ before, ts = before ++ [.mark .comma] ∧ Restored (listWords args) before

/-- In front of the closing parenthesis the comma does not count. -/
theorem ListRestored.close {args : List Assoc} {ts : List Leaf} (h : ListRestored args ts) :
    Restored (listWords args ++ [.mark .rParen]) (ts ++ [.mark .rParen]) := by
  rcases h with h | ⟨-, before, rfl, h⟩
  · exact h.concat _
  · rw [List.append_assoc]
    exact h.append (.comma .nil)

/-- A comma stands between an element and those behind it. -/
theorem ListRestored.cons {a : Assoc} {args : List Assoc} {first ts : List Leaf}
    (ha : Restored (elementWords a) first) (h : ListRestored args ts) :
    ListRestored (a :: args) (first ++ .mark .comma :: ts) := by
  cases args with
  | nil =>
      have hts : ts = [] := by
        rcases h with h | ⟨hne, -⟩
        · exact h.eq_nil
        · exact absurd rfl hne
      subst hts
      refine .inr ⟨List.cons_ne_nil a [], first, rfl, ?_⟩
      simpa [listWords] using ha
  | cons b args =>
      rcases h with h | ⟨-, before, rfl, h⟩
      · refine .inl ?_
        simpa [listWords] using (ha.concat (.mark .comma)).append h
      · refine .inr ⟨List.cons_ne_nil a _, first ++ .mark .comma :: before, by simp, ?_⟩
        simpa [listWords] using (ha.concat (.mark .comma)).append h

section

variable {nested : Parse Expr} [Wordwise true nested] (hnested : ReadsAt 0 Anywhere nested)

include hnested

theorem reads_bars (fuel : Nat) (ws : List Leaf) :
    Reads A (Restored ws) (afterEachN .bar nested fuel) fun xs ts =>
      Restored (ws ++ barWords xs) ts ∧ allBound xs = true := by
  induction fuel generalizing ws A with
  | zero => exact .giveUp
  | succ fuel ih =>
      rw [afterEachN]
      refine .accept (by decide) (fun t ts hk _ h => h.concat_bar hk) ?_
        (.pure fun ts h => ⟨by simpa [barWords] using h, rfl⟩)
      refine (hnested _).bind fun x => .known fun hx => ?_
      refine (ih _).bind fun xs => .known fun hxs => .pure fun ts h => ?_
      exact ⟨by simpa [barWords] using h, by rw [allBound, hx.wellBound, hxs]; rfl⟩

theorem reads_parseAssoc (ws : List Leaf) :
    Reads A (Restored ws) (parseAssoc nested) fun a ts =>
      Restored (ws ++ elementWords a) ts ∧ elementBound a = true := by
  rw [parseAssoc]
  refine ((hnested ws).narrow fun _ _ => trivial).bind fun x => .known fun hx => ?_
  refine .atAny ?_ (.pure fun ts h => ?_)
  · refine (Reads.sized fun fuel => reads_bars hnested fuel _).bind fun more => .known fun hmore => ?_
    refine .expect_ (by decide) (fun t ts hk hspelled h => h.concat_mark hk (by decide) hspelled) ?_
    refine (hnested _).bind fun y => .known fun hy => .pure fun ts h => ?_
    refine ⟨by simpa [elementWords, choiceWords] using h, ?_⟩
    rw [elementBound, allBound, hx.wellBound, hmore, hy.wellBound]
    rfl
  · exact ⟨by simpa [elementWords, choiceWords] using h, by rw [elementBound, hx.wellBound]; rfl⟩

theorem reads_parseArgsN (fuel : Nat) :
    Reads A (· = []) (parseArgsN nested fuel) fun args ts =>
      ListRestored args ts ∧ listBound args = true := by
  induction fuel generalizing A with
  | zero => exact .giveUp
  | succ fuel ih =>
      rw [parseArgsN]
      refine .atAny (.pure fun ts hts => ⟨.inl (hts ▸ .nil), rfl⟩) ?_
      have hfirst : Reads A (· = []) (parseAssoc nested) fun a ts =>
          Restored (elementWords a) ts ∧ elementBound a = true :=
        (reads_parseAssoc hnested []).after fun ts hts => hts ▸ .nil
      refine hfirst.bind fun a => .known fun ha => ?_
      refine .accept (by decide)
        (Q := fun ts => ∃ first, ts = first ++ [.mark .comma] ∧ Restored (elementWords a) first)
        ?_ ?_ (.pure fun ts h => ?_)
      · intro t ts hk hspelled h
        rw [hspelled.eq_mark_of_kind hk (by decide)]
        exact ⟨ts, rfl, h⟩
      -- the elements behind a comma decide whether it is one too many: they are read on their own
      · refine ih.frame.bind fun more => .pure fun ts h => ?_
        obtain ⟨_, new, rfl, ⟨first, rfl, hfirst⟩, hmore, hbound⟩ := h
        rw [List.append_assoc]
        exact ⟨.cons hfirst hmore, by rw [listBound, ha, hbound]; rfl⟩
      · exact ⟨.inl (by simpa [listWords] using h), by rw [listBound, ha]; rfl⟩

theorem reads_parseArgs (hA : ∀ s, A s → s.kind = .lParen) (ws : List Leaf) :
    Reads A (Restored ws) (parseArgs nested) fun args ts =>
      Restored (ws ++ .mark .lParen :: listWords args ++ [.mark .rParen]) ts ∧
        listBound args = true := by
  rw [parseArgs]
  refine reads_mark (B := Anywhere) (by decide) (fun s hs => ⟨hA s hs, trivial⟩) ?_
  refine (Reads.sized fun fuel => (reads_parseArgsN hnested fuel).frame).bind fun args => ?_
  refine .expect_ (by decide) ?_ (.pure fun _ h => h)
  rintro t ts hk hspelled ⟨before, new, rfl, hbefore, hargs, hbound⟩
  rw [hspelled.eq_mark_of_kind hk (by decide), List.append_assoc]
  refine ⟨?_, hbound⟩
  simpa using hbefore.append hargs.close

theorem readsAt_parseParenOrAggregate (hA : ∀ s, A s → s.kind = .lParen) :
    ReadsAt 7 A (parseParenOrAggregate nested) := by
  intro ws
  rw [parseParenOrAggregate]
  refine (reads_parseArgs hnested hA ws).bind fun args => ?_
  split
  · next x =>
      refine .pure fun ts h => ⟨?_, ?_, Nat.le_refl 7⟩
      · simpa [listWords, elementWords, choiceWords, words] using h.1
      · simpa [wellBound, listBound, elementBound, allBound] using h.2
  · refine .pure fun ts h => ⟨?_, h.2, Nat.le_refl 7⟩
    simpa [words] using h.1

/-! ## Suffixes -/

section

variable {x : Expr} (hx : x.Bound 7) {ws : List Leaf} {more : Expr → Parse Expr}
  [∀ y, Built true (more y)] (hmore : GoesOn ws more)

include hx hmore

theorem reads_call (hA : ∀ s, A s → s.kind = .lParen) :
    Reads A (Restored (ws ++ x.words)) (do more (.call x (← parseArgs nested))) fun y ts =>
      Restored (ws ++ y.words) ts ∧ y.Bound 7 := by
  refine (reads_parseArgs hnested hA _).bind fun args => .known fun hargs => ?_
  have hbound : (Expr.call x args).wellBound = true := by
    rw [Expr.wellBound, hx.wellBound, hargs]
    rfl
  simpa [words] using hmore (.call x args) ⟨hbound, Nat.le_refl 7⟩

/-- A tick in front of a parenthesis. -/
theorem reads_qualification (hA : ∀ s, A s → s.kind = .tick ∧ s.kindAhead 1 = .lParen) :
    Reads A (Restored (ws ++ x.words)) (do
      skip
      more (.qualified x (← parseParenOrAggregate nested))) fun y ts =>
        Restored (ws ++ y.words) ts ∧ y.Bound 7 := by
  refine reads_mark (k := .tick) (B := fun s => s.kind = .lParen) (by decide) ?_ ?_
  · intro s hs
    obtain ⟨hkind, hahead⟩ := hA s hs
    exact ⟨hkind, by rw [ParseState.kind_advance (by rw [hkind]; decide), hahead]⟩
  · refine (readsAt_parseParenOrAggregate hnested (fun s hs => hs) _).bind fun y =>
      .known fun hy => ?_
    have hbound : (Expr.qualified x y).wellBound = true := by
      rw [Expr.wellBound, hx.wellBound, hy.wellBound]
      rfl
    simpa [words] using hmore (.qualified x y) ⟨hbound, Nat.le_refl 7⟩

end

theorem reads_parseSuffixesN (fuel : Nat) {x : Expr} (hx : x.Bound 7) (ws : List Leaf) :
    Reads A (Restored (ws ++ x.words)) (parseSuffixesN nested fuel x) fun y ts =>
      Restored (ws ++ y.words) ts ∧ y.Bound 7 := by
  induction fuel generalizing x A with
  | zero => exact .giveUp
  | succ fuel ih =>
      have hmore : GoesOn ws (parseSuffixesN nested fuel) := fun y hy => ih hy
      rw [parseSuffixesN]
      refine .kind fun k => ?_
      split
      · exact reads_selection hx hmore fun s hs => hs.2
      · exact reads_call hnested hx hmore fun s hs => hs.2
      · refine .kindAhead fun next => .ite (fun hnext => ?_) fun _ => ?_
        · refine reads_qualification hnested hx hmore ?_
          rintro s ⟨⟨-, hkind⟩, hahead⟩
          exact ⟨hkind, hahead.trans (beq_iff_eq.mp hnext)⟩
        · exact reads_attribute hx hmore fun s hs => hs.1.2
      · exact .pure fun ts h => ⟨h, hx⟩

theorem reads_parseSuffixes {x : Expr} (hx : x.Bound 7) (ws : List Leaf) :
    Reads A (Restored (ws ++ x.words)) (parseSuffixes nested x) fun y ts =>
      Restored (ws ++ y.words) ts ∧ y.Bound 7 :=
  .sized fun fuel => reads_parseSuffixesN hnested fuel hx ws

/-! ## Primaries -/

/-- A name or a string, and what is behind it. -/
theorem reads_name {t : Token} (hA : ∀ s, A s → s.current = t ∧ s.kind ≠ .eof) (ws : List Leaf) :
    Reads A (Restored ws) (skip >>= fun _ => parseSuffixes nested (.leaf (leafOf t))) fun x ts =>
      Restored (ws ++ x.words) ts ∧ x.Bound 7 := by
  refine .skipToken hA (fun ts hspelled h => ?_)
    (reads_parseSuffixes hnested (bound_leaf (leafOf t)) ws)
  rw [words, hspelled.words_eq]
  exact h.concat (leafOf t)

theorem readsAt_parseOperand : ReadsAt 7 Anywhere (parseOperand nested) := by
  intro ws
  rw [parseOperand]
  refine .current fun t => ?_
  have hkind : ∀ k, t.kind = k → k ≠ .eof →
      ∀ s : ParseState, True ∧ s.current = t → s.current = t ∧ s.kind ≠ .eof := by
    rintro k hk hne s ⟨-, hs⟩
    refine ⟨hs, ?_⟩
    rw [ParseState.kind, hs, hk]
    exact hne
  split
  · next hk => exact reads_name hnested (hkind _ hk (by decide)) ws
  · next hk => exact reads_name hnested (hkind _ hk (by decide)) ws
  · next hk => exact reads_name hnested (hkind _ hk (by decide)) ws
  · next hk => exact reads_number (by rw [hk]; decide) (hkind _ hk (by decide)) ws
  · next hk => exact reads_number (by rw [hk]; decide) (hkind _ hk (by decide)) ws
  · next hk => exact reads_leaf (hkind _ hk (by decide)) ws
  · next hk => exact reads_leaf (hkind _ hk (by decide)) ws
  · next hk => exact reads_leaf (hkind _ hk (by decide)) ws
  · next hk => exact reads_leaf (hkind _ hk (by decide)) ws
  · next hk => exact reads_leaf (hkind _ hk (by decide)) ws
  · next hk => exact reads_leaf (hkind _ hk (by decide)) ws
  · next hk => exact reads_leaf (hkind _ hk (by decide)) ws
  · next hk =>
      refine readsAt_parseParenOrAggregate hnested ?_ ws
      rintro s ⟨-, hs⟩
      rw [ParseState.kind, hs, hk]
  · exact .fails fun s => Nat.lt_succ_self s.errors

theorem readsAt_parsePrimary : ReadsAt 7 Anywhere (parsePrimary nested) := by
  intro ws
  rw [parsePrimary]
  refine (Reads.sized fun fuel => reads_parseAllocatorsN fuel ws).bind fun ls => ?_
  refine (readsAt_parseOperand hnested _).bind fun x => .known fun hx => .pure fun ts h => ?_
  rw [words_allocators, ← List.append_assoc]
  exact ⟨h, bound_allocators ls hx⟩

/-! ## Levels of operators -/

theorem readsAt_parseFactor : ReadsAt 6 Anywhere (parseFactor nested) := by
  intro ws
  rw [parseFactor]
  refine .atAny ?_ (readsAt_parsePair (by decide) (by decide) (readsAt_parsePrimary hnested) ws)
  refine .token (by decide) (fun s hs => hs.2) (fun op ts _ _ h => h.concat (leafOf op))
    fun op _ => ?_
  refine (readsAt_parsePrimary hnested _).bind fun x => .known fun hx => .pure fun ts h => ?_
  exact ⟨by simpa [words] using h, hx.wellBound, Nat.le_succ 6⟩

theorem readsAt_parseTerm : ReadsAt 5 Anywhere (parseTerm nested) := by
  intro ws
  rw [parseTerm]
  refine (readsAt_parseFactor hnested ws).bind fun x => .known fun hx => ?_
  exact reads_parseChain (by decide) (by decide) (readsAt_parseFactor hnested)
    (hx.mono (Nat.le_succ 5)) ws

theorem readsAt_parseAdding : ReadsAt 4 Anywhere (parseAdding nested) := by
  intro ws
  rw [parseAdding]
  have hchain : ∀ {x : Expr}, x.Bound 4 →
      Reads Anywhere (Restored (ws ++ x.words)) (parseChain addingOps (parseTerm nested) x)
        fun y ts => Restored (ws ++ y.words) ts ∧ y.Bound 4 := fun hx =>
    reads_parseChain (by decide) (by decide) (readsAt_parseTerm hnested) hx ws
  refine .atAny ?_ ?_
  · refine .token (by decide) (fun s hs => hs.2) (fun op ts _ _ h => h.concat (leafOf op))
      fun op _ => ?_
    refine (readsAt_parseTerm hnested _).bind fun x => .known fun hx => ?_
    have hsigned := hchain (x := .unary (leafOf op) x) ⟨hx.wellBound, Nat.le_add_right 4 3⟩
    simpa [words] using hsigned
  · refine (readsAt_parseTerm hnested ws).bind fun x => .known fun hx => ?_
    exact hchain (hx.mono (Nat.le_succ 4))

theorem readsAt_parseShift : ReadsAt 3 Anywhere (parseShift nested) :=
  readsAt_parsePair (by decide) (by decide) (readsAt_parseAdding hnested)

theorem readsAt_parseRelation : ReadsAt 2 Anywhere (parseRelation nested) :=
  readsAt_parsePair (by decide) (by decide) (readsAt_parseShift hnested)

theorem readsAt_parseExprWith : ReadsAt 1 Anywhere (parseExprWith nested) := by
  intro ws
  rw [parseExprWith]
  refine (readsAt_parseRelation hnested ws).bind fun x => .known fun hx => ?_
  exact reads_parseChain (by decide) (by decide) (readsAt_parseRelation hnested)
    (hx.mono (Nat.le_succ 1)) ws

theorem readsAt_parseRangeWith : ReadsAt 0 Anywhere (parseRangeWith nested) := by
  intro ws
  rw [parseRangeWith]
  refine (readsAt_parseExprWith hnested ws).bind fun x => .known fun hx => ?_
  refine .atAny ?_ ?_
  · refine .token (by decide) (fun s hs => hs.2) (fun op ts _ _ h => h.concat (leafOf op))
      fun op hop => ?_
    refine (readsAt_parseExprWith hnested _).bind fun y => .known fun hy => .pure fun ts h => ?_
    have hlevel : ∀ k ∈ [Kind.kwTo, .kwDownto], k.level = 0 := by decide
    exact ⟨by simpa [words] using h, .pair (hlevel _ hop) (by decide) hx hy⟩
  · refine .isAt fun b => .ite (fun hb => ?_) fun _ => .pure fun ts h => ⟨h, hx.mono (Nat.zero_le 1)⟩
    subst hb
    refine .token (K := [.kwRange]) (by decide) ?_ (fun op ts _ _ h => h.concat (leafOf op))
      fun op hop => ?_
    · intro s hs
      simpa using hs.2
    · have hrange : op.kind = .kwRange := List.mem_singleton.mp hop
      refine .accept? (by decide)
        (Q := fun box => Restored (ws ++ x.words ++ [leafOf op] ++ (Expr.leaf (leafOf box)).words))
        (fun box ts _ hspelled h => ?_) ?_ ?_
      · rw [words, hspelled.words_eq]
        exact h.concat (leafOf box)
      · intro box _
        refine .pure fun ts h => ⟨by simpa [words] using h, .range hrange hx ?_⟩
        exact (bound_leaf (leafOf box)).mono (Nat.zero_le 7)
      · refine (hnested _).bind fun y => .known fun hy => .pure fun ts h => ?_
        exact ⟨by simpa [words] using h, .range hrange hx hy⟩

end

/-! ## All levels of nesting -/

theorem readsAt_parseRangeN (fuel : Nat) : ReadsAt 0 Anywhere (parseRangeN fuel) := by
  induction fuel with
  | zero => exact fun ws => .giveUp
  | succ fuel ih => exact readsAt_parseRangeWith ih

theorem readsAt_parseRange : ReadsAt 0 Anywhere parseRange :=
  fun ws => .sized (f := fun fuel => parseRangeN (fuel + 1)) fun fuel =>
    readsAt_parseRangeN (fuel + 1) ws

/-- An expression or a range that is read without an error gives back, word for word, the tokens
it was read from, and its operators bind. The list of tokens has one end token, at its end, and
spells every delimiter as the lexer does, which gives such a list for every source. -/
theorem parseRange_restores_and_binds :
    (∀ f : SourceFile, Token.Ended f.tokens.1 ∧ ∀ t ∈ f.tokens.1, (leafOf t).WellSpelled) ∧
      ∀ s : ParseState, s.Ended → s.WellSpelled → (parseRange s).2.errors = s.errors →
        ∃ read, s.leaves = read ++ (parseRange s).2.leaves ∧
          Restored (parseRange s).1.words read ∧ (parseRange s).1.wellBound = true := by
  refine ⟨fun f => ⟨f.tokens_ended, f.tokens_wellSpelled⟩, ?_⟩
  intro s hended hspelled herrors
  -- a loop that gave up long ago changes nothing of what is read now
  let fresh : ParseState := { s with gaveUp := false }
  obtain ⟨htree, hleaves, hfound⟩ :=
    Wordwise.same_words (p := parseRange) inferInstance (s := s) (t := fresh) rfl rfl
  have hlive : fresh.Live fresh.size := ⟨hended, Nat.le_refl _, rfl⟩
  have hclean : fresh.Clean (parseRange fresh).2 :=
    ⟨hfound.symm.trans herrors, (finishes_parseRange.run fresh hlive).kept⟩
  obtain ⟨read, hread, hrestored, hbound⟩ :=
    (readsAt_parseRange []).run fresh [] hspelled trivial .nil hclean
  rw [List.nil_append, List.nil_append] at hrestored
  rw [htree, hleaves]
  exact ⟨read, hread, hrestored, hbound.wellBound⟩

/-- A comma too many, a bar that is an exclamation mark and a number with a unit. -/
theorem parseRange_restores_and_binds_call :
    let f : SourceFile := ⟨0, "e.vhd", "f(a ! b => 10 ns,) + c", default⟩
    let s : ParseState := { rest := f.tokens.1, bag := default }
    (parseRange s).2.errors = s.errors ∧
      ∃ read, s.leaves = read ++ (parseRange s).2.leaves ∧
        Restored (parseRange s).1.words read ∧ (parseRange s).1.wellBound = true := by
  intro f s
  have herrors : (parseRange s).2.errors = s.errors := by decide +kernel
  obtain ⟨hended, hspelled⟩ := parseRange_restores_and_binds.1 f
  have hleaves : s.WellSpelled := by
    intro w hw
    obtain ⟨t, ht, rfl⟩ := List.mem_map.mp hw
    exact hspelled t ht
  exact ⟨herrors, parseRange_restores_and_binds.2 s hended hleaves herrors⟩

end VhdlStyle.Expr
