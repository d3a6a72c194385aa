import VhdlStyle.Proofs.Spacing.Runs

/-! # Two runs over whole files

Blank lines above the first token reach the tree: they stand above its first row. Nothing else of
the white space does, as long as no error makes the parser look for the start of a line. -/

namespace VhdlStyle

/-! ## The blank line above a unit -/

/-- The trivia without a blank line above the row and all of its comments. -/
def RowTrivia.unblank (t : RowTrivia) : RowTrivia :=
  match t.leading with
  | [] => { t with blankBefore := false }
  | _ :: _ => t

/-- The clause without a blank line above it. -/
def UseClause.unblank (c : UseClause) : UseClause := { c with trivia := c.trivia.unblank }

/-- The item without a blank line above it. -/
def ContextItem.unblank : ContextItem → ContextItem
  | .library t names => .library t.unblank names
  | .use clause => .use clause.unblank

/-- The context clause without a blank line above its first item. -/
def ContextItem.unblankFirst : List ContextItem → List ContextItem
  | [] => []
  | item :: rest => item.unblank :: rest

/-- The unit without a blank line above its first row. -/
def DesignUnit.unblank (u : DesignUnit) : DesignUnit :=
  match u.context with
  | [] => { u with trivia := u.trivia.unblank }
  | item :: rest => { u with context := item.unblank :: rest }

/-- The file without blank lines above its units. -/
def DesignFile.unblank (f : DesignFile) : DesignFile :=
  { f with units := f.units.map DesignUnit.unblank }

namespace ParseState

/-- The states of two runs that are alike once the place in front of the current token is taken, and
there is no comment in it. -/
structure Met (s t : ParseState) : Prop where
  taken : (Parse.tail s).2.Alike (Parse.tail t).2
  left : (Parse.tail s).1 = []
  right : (Parse.tail t).1 = []

theorem Alike.met {s t : ParseState} (h : s.Alike t) : s.Met t :=
  ⟨h.taken, Parse.tail_plain h.left, Parse.tail_plain h.right⟩

theorem Met.leaves {s t : ParseState} (h : s.Met t) : s.leaves = t.leaves := by
  rw [← leaves_taken s, ← leaves_taken t, h.taken.leaves]

theorem Met.errors {s t : ParseState} (h : s.Met t) : s.errors = t.errors := by
  rw [← errors_taken s, ← errors_taken t, h.taken.errors]

theorem Met.giveUp {s t : ParseState} (h : s.Met t) :
    ({ s with gaveUp := true } : ParseState).Met { t with gaveUp := true } := by
  have htaken (u : ParseState) : (Parse.tail { u with gaveUp := true }).2 =
      { (Parse.tail u).2 with gaveUp := true } := by
    cases hrest : u.rest <;> simp [Parse.tail, setLeading, hrest]
  refine ⟨?_, h.left, h.right⟩
  rw [htaken s, htaken t]
  exact ⟨h.taken.leaves, h.taken.errors, ⟨h.taken.left.tokens, h.taken.left.pending⟩,
    ⟨h.taken.right.tokens, h.taken.right.pending⟩⟩

end ParseState

namespace Parse

variable {α β γ : Type}

/-! ## Pairs of runs -/

/-- From states that `P` relates, two actions end with results that `V` relates and states that `Q`
relates, unless the first reports an error. -/
def Paired (P : ParseState → ParseState → Prop) (p q : Parse α) (V : α → α → Prop)
    (Q : ParseState → ParseState → Prop) : Prop :=
  ∀ s t, P s t → (p s).2.errors ≤ s.errors → V (p s).1 (q t).1 ∧ Q (p s).2 (q t).2

section

variable {P Q R : ParseState → ParseState → Prop} {p q : Parse α} {V : α → α → Prop}
  {W : β → β → Prop}

theorem Paired.weaken (h : Paired P p q V Q) (hP : ∀ s t, R s t → P s t) : Paired R p q V Q :=
  fun s t hst => h s t (hP s t hst)

theorem Paired.pure {a b : α} (h : V a b) : Paired P (pure a) (pure b) V P :=
  fun _ _ hst _ => ⟨h, hst⟩

theorem Paired.seq {f g : α → Parse β} [hbuilt : Built true p] (hrest : ∀ a, Built true (f a))
    (hp : Paired P p q V Q) (hf : ∀ a b, V a b → Paired Q (f a) (g b) W R) :
    Paired P (p >>= f) (q >>= g) W R := by
  intro s t hst herrors
  -- errors only grow, so neither half has reported any
  have hfirst := hbuilt.errors_le s
  have hlast := (hrest (p s).1).errors_le (p s).2
  have herrors' : (f (p s).1 (p s).2).2.errors ≤ s.errors := herrors
  obtain ⟨hvalue, hstates⟩ := hp s t hst (by omega)
  exact hf _ _ hvalue _ _ hstates (by omega)

theorem Paired.bind {f g : α → Parse β} [Built true p] [hrest : ∀ a, Built true (f a)]
    (hp : Paired P p q V Q) (hf : ∀ a b, V a b → Paired Q (f a) (g b) W R) :
    Paired P (p >>= f) (q >>= g) W R := .seq hrest hp hf

theorem Paired.get {f g : ParseState → Parse α} (h : ∀ s t, P s t → Paired P (f s) (g t) V Q) :
    Paired P (MonadState.get >>= f) (MonadState.get >>= g) V Q :=
  fun s t hst => h s t hst s t hst

/-- Both runs see the same. -/
theorem Paired.look {v : ParseState → β} {f g : β → Parse α} (hv : ∀ s t, P s t → v s = v t)
    (h : ∀ b, Paired P (f b) (g b) V Q) :
    Paired P ((fun s => (v s, s)) >>= f) ((fun s => (v s, s)) >>= g) V Q := by
  intro s t hst
  have hrun : ((fun s => (v s, s)) >>= g : Parse α) t = g (v s) t := by
    rw [hv s t hst]
    rfl
  rw [hrun]
  exact h (v s) s t hst

theorem Paired.ite {b : Prop} [Decidable b] {p' q' : Parse α} (h : Paired P p q V Q)
    (h' : Paired P p' q' V Q) :
    Paired P (if b then p else p') (if b then q else q') V Q := by
  split
  · exact h
  · exact h'

/-- A run that reports an error is related to every other. -/
theorem Paired.fails {r : Parse β} {f : β → Parse α} [hf : ∀ b, Built true (f b)]
    (hfails : ∀ s, s.errors < (r s).2.errors) : Paired P (r >>= f) q V Q := by
  intro s t _ herrors
  have hrest := (hf (r s).1).errors_le (r s).2
  have hall : (f (r s).1 (r s).2).2.errors ≤ s.errors := herrors
  have hmore := hfails s
  omega

/-- What sees only words goes alike in alike states. -/
theorem Paired.wordwise [h : Wordwise true p] : Paired ParseState.Alike p p Eq ParseState.Alike :=
  fun _ _ hst _ => h.alike hst

end

/-! ## Rows -/

/-- Where a row starts, the action reads what it reads without the blank line above the row; `g`
forgets whether there was one. -/
def ReadsRow (g : α → α) (p : Parse α) : Prop :=
  ∀ s, (tail s).1 = [] → (g <$> p) s = p (tail s).2

theorem readsRow {g : α → α} {k : RowTrivia → Parse α}
    (h : ∀ blank, g <$> k { blankBefore := blank } = k {}) : ReadsRow g (rowTrivia >>= k) := by
  intro s hs
  have hrow : rowTrivia s =
      ({ blankBefore := (Comment.ofTrivia s.current.leading).2 }, (tail s).2) := by
    have hnone : s.pending ++ (Comment.ofTrivia s.current.leading).1 = [] := hs
    simp [rowTrivia, tail, hnone]
  have hplain : rowTrivia (tail s).2 = ({}, (tail s).2) := by
    cases hrest : s.rest <;> simp [rowTrivia, tail, ParseState.setLeading, hrest] <;> rfl
  have hleft : (g <$> (rowTrivia >>= k)) s = (g <$> k (rowTrivia s).1) (rowTrivia s).2 := rfl
  have hright : (rowTrivia >>= k) (tail s).2 =
      k (rowTrivia (tail s).2).1 (rowTrivia (tail s).2).2 := rfl
  rw [hleft, hright, hrow, hplain, h]

theorem ReadsRow.paired {g : α → α} {p : Parse α} [hp : Wordwise true p] (h : ReadsRow g p) :
    Paired ParseState.Met p p (fun a b => g a = g b) ParseState.Alike := by
  intro s t hst _
  obtain ⟨hvalue, hstates⟩ := hp.alike hst.taken
  rw [← h s hst.left, ← h t hst.right] at hvalue hstates
  exact ⟨hvalue, hstates⟩

end Parse

open Parse

theorem readsRow_library : ReadsRow ContextItem.unblank ContextItem.parseLibrary := by
  unfold ContextItem.parseLibrary
  exact readsRow fun _ => rfl

theorem readsRow_use : ReadsRow ContextItem.unblank (ContextItem.use <$> UseClause.parse) := by
  unfold UseClause.parse
  rw [map_bind]
  exact readsRow fun _ => rfl

namespace DesignUnit

/-- The unit with a context clause in front of it. -/
def withContext (context : List ContextItem) (u : DesignUnit) : DesignUnit :=
  { u with context := context }

/-- The context clause is put in front of the unit, and the unit starts a row. -/
structure ReadsUnit (p : List ContextItem → Parse DesignUnit) : Prop where
  context : ∀ context, p context = withContext context <$> p []
  row : ReadsRow unblank (p [])

theorem withContext_close (trivia : RowTrivia) (context : List ContextItem) (name : Bytes)
    (body : UnitBody) (words : List Kind) :
    withContext context <$> close trivia [] name body words =
      close trivia context name body words := rfl

theorem unblank_close (blank : Bool) (name : Bytes) (body : UnitBody) (words : List Kind) :
    unblank <$> close { blankBefore := blank } [] name body words = close {} [] name body words :=
  rfl

theorem map_branch {α β : Type} (g : α → β) (b : Prop) [Decidable b] (p q : Parse α) :
    g <$> (if b then p else q) = if b then g <$> p else g <$> q := apply_ite (Functor.map g) b p q

theorem readsUnit_entity : ReadsUnit parseEntity where
  context context := by simp only [parseEntity, map_bind, map_branch, withContext_close]
  row := by
    unfold parseEntity
    exact readsRow fun blank => by simp only [map_bind, map_branch, unblank_close]

theorem readsUnit_architecture : ReadsUnit parseArchitecture where
  context context := by simp only [parseArchitecture, map_bind, withContext_close]
  row := by
    unfold parseArchitecture
    exact readsRow fun blank => by simp only [map_bind, unblank_close]

theorem readsUnit_package : ReadsUnit parsePackage where
  context context := by simp only [parsePackage, map_bind, withContext_close]
  row := by
    unfold parsePackage
    exact readsRow fun blank => by simp only [map_bind, unblank_close]

theorem readsUnit_packageBody : ReadsUnit parsePackageBody where
  context context := by simp only [parsePackageBody, map_bind, withContext_close]
  row := by
    unfold parsePackageBody
    exact readsRow fun blank => by simp only [map_bind, unblank_close]

end DesignUnit

/-! ## Files -/

namespace DesignFile

open ContextItem (unblankFirst)

variable {context context' : List ContextItem}

/-- Results with the same unit or units and the same context items, the blank lines above the first
row apart. -/
def SameParts {α : Type} (unblank : α → α) (a b : α × List ContextItem) : Prop :=
  unblank a.1 = unblank b.1 ∧ unblankFirst a.2 = unblankFirst b.2

/-- The states of two runs before a unit or a further item of its context clause. -/
def Between (context : List ContextItem) (s t : ParseState) : Prop :=
  s.Met t ∧ (context ≠ [] → s.Alike t)

theorem between_of_alike {s t : ParseState} (h : s.Alike t) : Between context s t :=
  ⟨h.met, fun _ => h⟩

/-- The first items of two context clauses are the same but for a blank line, and so are the
others. -/
theorem unblankFirst_cases (h : unblankFirst context = unblankFirst context') :
    (context = [] ∧ context' = []) ∨ ∃ item item' rest, context = item :: rest ∧
      context' = item' :: rest ∧ item.unblank = item'.unblank := by
  cases context <;> cases context'
  case nil.nil => exact .inl ⟨rfl, rfl⟩
  case nil.cons => exact absurd h (by simp [unblankFirst])
  case cons.nil => exact absurd h (by simp [unblankFirst])
  case cons.cons item rest item' rest' =>
    obtain ⟨hitem, hrest⟩ := List.cons.inj h
    exact .inr ⟨item, item', rest, rfl, by rw [hrest], hitem⟩

/-- A further item of a context clause. -/
theorem Paired.item {p : Parse ContextItem} [Wordwise true p]
    (hp : ReadsRow ContextItem.unblank p) (h : unblankFirst context = unblankFirst context') :
    Paired (Between context) (do return ((none : Option DesignUnit), context ++ [← p]))
      (do return (none, context' ++ [← p])) (SameParts (Option.map DesignUnit.unblank))
      ParseState.Alike := by
  rcases unblankFirst_cases h with ⟨rfl, rfl⟩ | ⟨item, item', rest, rfl, rfl, hitem⟩
  · refine .bind (hp.paired.weaken fun _ _ hst => hst.1) fun i j hij => .pure ⟨rfl, ?_⟩
    simp [unblankFirst, hij]
  · refine .bind (Paired.wordwise.weaken fun _ _ hst => hst.2 (by simp)) fun i j hij => ?_
    refine .pure ⟨rfl, ?_⟩
    simp [unblankFirst, hitem, hij]

/-- The unit behind a context clause. -/
theorem Paired.unit {p : List ContextItem → Parse DesignUnit} [Wordwise true (p [])]
    (hp : DesignUnit.ReadsUnit p) (h : unblankFirst context = unblankFirst context') :
    Paired (Between context) (do return (some (← p context), []))
      (do return (some (← p context'), [])) (SameParts (Option.map DesignUnit.unblank))
      ParseState.Alike := by
  rcases unblankFirst_cases h with ⟨rfl, rfl⟩ | ⟨item, item', rest, rfl, rfl, hitem⟩
  · refine .bind (hp.row.paired.weaken fun _ _ hst => hst.1) fun u v huv => ?_
    exact .pure ⟨congrArg some huv, rfl⟩
  · rw [hp.context (item :: rest), hp.context (item' :: rest), bind_map_left, bind_map_left]
    refine .bind (Paired.wordwise.weaken fun _ _ hst => hst.2 (by simp)) fun u v huv => ?_
    refine .pure ⟨?_, rfl⟩
    simp [huv, DesignUnit.withContext, DesignUnit.unblank, hitem]

theorem paired_parseStep (h : unblankFirst context = unblankFirst context') :
    Paired (Between context) (parseStep context) (parseStep context')
      (SameParts (Option.map DesignUnit.unblank)) ParseState.Alike := by
  unfold parseStep
  refine Paired.look (v := ParseState.kind)
    (fun s t hst => ParseState.kind_eq_of_leaves hst.1.leaves) fun k => ?_
  split
  case h_1 => exact Paired.item readsRow_library h
  case h_2 =>
    have hitem := Paired.item readsRow_use h
    simpa only [bind_map_left] using hitem
  case h_3 => exact Paired.unit DesignUnit.readsUnit_entity h
  case h_4 => exact Paired.unit DesignUnit.readsUnit_architecture h
  case h_5 =>
    refine Paired.look (v := fun s => s.kindAhead 1)
      (fun s t hst => ParseState.kindAhead_eq_of_leaves hst.1.leaves 1) fun next => .ite ?_ ?_
    · exact Paired.unit DesignUnit.readsUnit_packageBody h
    · exact Paired.unit DesignUnit.readsUnit_package h
  case h_6 => exact .fails fun s => fault_errors _ _ s

theorem paired_parseUnitsN (fuel : Nat) (h : unblankFirst context = unblankFirst context') :
    Paired (Between context) (parseUnitsN fuel context) (parseUnitsN fuel context')
      (SameParts (List.map DesignUnit.unblank)) ParseState.Met := by
  induction fuel generalizing context context' with
  | zero =>
      rintro s t hst -
      exact ⟨⟨rfl, h⟩, hst.1.giveUp⟩
  | succ fuel ih =>
      unfold parseUnitsN
      refine Paired.look (v := fun s => s.kind == .eof)
        (fun s t hst => by rw [ParseState.kind_eq_of_leaves hst.1.leaves])
        fun atEnd => .ite ((Paired.pure ⟨rfl, h⟩).weaken fun _ _ hst => hst.1) ?_
      refine .get fun s t hst => .seq (fun step => ?_) (paired_parseStep h) ?_
      · exact .get (fun s t h => by simp only [ParseState.size_eq_of_view h])
          fun after => inferInstance
      · intro step step' hstep
        refine .get fun after after' hafter => ?_
        rw [ParseState.size_eq_of_leaves hst.1.leaves, ParseState.size_eq_of_leaves hafter.leaves]
        extract_lets -underBinder next next'
        have hnext (u : Unit) : Paired ParseState.Alike (next u) (next' u)
            (SameParts (List.map DesignUnit.unblank)) ParseState.Met := by
          refine .bind ((ih hstep.2).weaken fun _ _ => between_of_alike) fun rest rest' hrest => ?_
          refine .pure ⟨?_, hrest.2⟩
          have hunit : step.1.toList.map DesignUnit.unblank =
              step'.1.toList.map DesignUnit.unblank := by
            rw [← Option.toList_map, ← Option.toList_map, hstep.1]
          rw [List.map_append, List.map_append, hunit, hrest.1]
        have hbuilt (u : Unit) : Built true (next u) := inferInstance
        clear_value next next'
        exact .ite (.bind .wordwise fun u _ hu => hu ▸ hnext u) (hnext ⟨⟩)

/-- Runs over the same words, the first one without an error, read the same file but for blank
lines above its units. -/
theorem parseTokens_unblank {s t : ParseState} (hst : s.Met t)
    (herrors : (parseTokens s).2.errors ≤ s.errors) :
    (parseTokens s).1.unblank = (parseTokens t).1.unblank := by
  have hunits : Paired ParseState.Met (fun s => parseUnitsN s.size [] s)
      (fun s => parseUnitsN s.size [] s) (SameParts (List.map DesignUnit.unblank))
      ParseState.Met := by
    intro s t hst
    dsimp only
    rw [← ParseState.size_eq_of_leaves hst.leaves]
    exact paired_parseUnitsN s.size rfl s t ⟨hst, fun hne => absurd rfl hne⟩
  have hbuilt : Built true (fun s => parseUnitsN s.size [] s) :=
    built_sized (f := fun n => parseUnitsN n [])
  have hfile : Paired ParseState.Met parseTokens parseTokens
      (fun f g => f.unblank = g.unblank) (fun _ _ => True) := by
    unfold parseTokens
    refine .bind hunits fun parts parts' hparts => ?_
    have hempty : parts'.2.isEmpty = parts.2.isEmpty := by
      rcases unblankFirst_cases hparts.2 with ⟨h, h'⟩ | ⟨_, _, _, h, h', -⟩
      · rw [h, h']
      · rw [h, h']
        rfl
    dsimp only
    rw [hempty]
    refine .ite (.fails fun s => fault_errors _ _ s) ?_
    intro s t hst _
    refine ⟨?_, trivial⟩
    change (⟨parts.1.map DesignUnit.unblank, (Parse.tail s).1⟩ : DesignFile) =
      ⟨parts'.1.map DesignUnit.unblank, (Parse.tail t).1⟩
    rw [hparts.1, hst.left, hst.right]
  exact (hfile s t hst herrors).1

end DesignFile

end VhdlStyle
