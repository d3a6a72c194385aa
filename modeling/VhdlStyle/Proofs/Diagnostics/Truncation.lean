import VhdlStyle.Proofs.Parsing.Actions

/-! # Diagnostics limits only truncate

Parsing never looks at the diagnostics it has reported: a run reads the same tree and reports the
same diagnostics whatever the bag and the bound on errors. A bag then keeps as many of them as
have room, and the bound on errors silences only those that a full bag would refuse anyway. -/

namespace VhdlStyle

/-! ## Bags -/

namespace Bag

/-- A bag never holds more than its limit. -/
def Bounded (b : Bag) : Prop := b.items.length ≤ b.limit

theorem add_items {b : Bag} (hb : b.Bounded) (d : Diagnostic) :
    (b.add d).items = (b.items ++ [d]).take b.limit := by
  unfold Bounded at hb
  unfold add
  split
  · rename_i hroom
    have hlt : b.items.length < b.limit := by simpa [hasRoom] using hroom
    rw [List.take_of_length_le]
    simp only [List.length_append, List.length_singleton]
    omega
  · rename_i hroom
    have hfull : b.limit = b.items.length := by
      simp [hasRoom] at hroom
      omega
    rw [hfull, List.take_append_of_le_length (Nat.le_refl _), List.take_length]

@[simp] theorem add_limit (b : Bag) (d : Diagnostic) : (b.add d).limit = b.limit := by
  unfold add
  split <;> rfl

theorem add_bounded {b : Bag} (hb : b.Bounded) (d : Diagnostic) : (b.add d).Bounded := by
  rw [Bounded, add_items hb, add_limit]
  exact List.length_take_le _ _

/-- What a full list cuts off stays cut off when more follows. -/
theorem take_take_append {α : Type} (n : Nat) (xs ys : List α) :
    (xs.take n ++ ys).take n = (xs ++ ys).take n := by
  rcases Nat.le_total n xs.length with hle | hle
  · rw [List.take_append_of_le_length (by simp [hle]), List.take_append_of_le_length hle,
      List.take_take, Nat.min_self]
  · rw [List.take_of_length_le hle]

theorem addAll_eq {b : Bag} (hb : b.Bounded) (ds : List Diagnostic) :
    b.addAll ds = ⟨b.limit, (b.items ++ ds).take b.limit⟩ := by
  induction ds generalizing b with
  | nil =>
      rw [List.append_nil, List.take_of_length_le hb]
      rfl
  | cons d rest ih =>
      have hstep : b.addAll (d :: rest) = (b.add d).addAll rest := rfl
      rw [hstep, ih (add_bounded hb d), add_limit, add_items hb, take_take_append,
        List.append_assoc, List.singleton_append]

end Bag

/-! ## Reported diagnostics -/

namespace ParseState

/-- The state after a diagnostic is reported. -/
def record (s : ParseState) (d : Diagnostic) : ParseState :=
  let isError := d.severity == .error
  let silent := isError && s.maxErrors != 0 && s.maxErrors ≤ s.errors
  { s with
    errors := if isError then s.errors + 1 else s.errors
    bag := if silent then s.bag else s.bag.add d }

/-- The state after diagnostics are reported one after the other. -/
def recordAll (s : ParseState) (ds : List Diagnostic) : ParseState := ds.foldl record s

theorem recordAll_withView (s : ParseState) (v : ParseView) (ds : List Diagnostic) :
    (s.recordAll ds).withView v = (s.withView v).recordAll ds := by
  induction ds generalizing s with
  | nil => rfl
  | cons d rest ih => exact ih (s.record d)

theorem recordAll_append (s : ParseState) (ds es : List Diagnostic) :
    (s.recordAll ds).recordAll es = s.recordAll (ds ++ es) := by
  rw [recordAll, recordAll, recordAll, List.foldl_append]

theorem recordAll_view (s : ParseState) (ds : List Diagnostic) : (s.recordAll ds).view = s.view := by
  induction ds generalizing s with
  | nil => rfl
  | cons d rest ih => exact ih (s.record d)

@[simp] theorem withView_view (s : ParseState) : s.withView s.view = s := rfl

@[simp] theorem view_withView (s : ParseState) (v : ParseView) : (s.withView v).view = v := rfl

end ParseState

/-! ## Runs do not depend on what was reported -/

namespace Parse

/-- The action reports nothing, and what it does depends on the view alone. -/
def Quiet {α : Type} (p : Parse α) : Prop :=
  ∀ s v, s.view = v → p s = ((p (ParseState.withView default v)).1,
    s.withView (p (ParseState.withView default v)).2.view)

theorem quiet_advance : Quiet advance := by
  rintro s v rfl
  unfold advance
  dsimp only [ParseState.withView, ParseState.view]
  split
  · rfl
  · split <;> rfl

theorem quiet_rowTrivia : Quiet rowTrivia := by
  rintro ⟨rest, _, _, _, _, _, _, _⟩ v rfl
  cases rest <;> rfl

theorem quiet_tail : Quiet tail := by
  rintro ⟨rest, _, _, _, _, _, _, _⟩ v rfl
  cases rest <;> rfl

theorem quiet_inline : Quiet inline := by
  rintro ⟨rest, _, _, _, _, _, _, _⟩ v rfl
  unfold inline
  dsimp only [ParseState.withView, ParseState.view, ParseState.current]
  split
  · cases rest <;> rfl
  · rfl

theorem Quiet.uniform {α : Type} {p : Parse α} (h : Quiet p) (v : ParseView) :
    ∃ a w ds, ∀ s : ParseState, s.view = v → p s = (a, (s.withView w).recordAll ds) :=
  ⟨_, _, [], fun s hs => h s v hs⟩

/-- From a view an action gives one result, one new view and one list of diagnostics, whatever has
been reported before and however much of it was kept. -/
theorem Built.uniform {takes : Bool} {α : Type} {p : Parse α} (h : Built takes p) (v : ParseView) :
    ∃ a w ds, ∀ s : ParseState, s.view = v → p s = (a, (s.withView w).recordAll ds) := by
  induction h generalizing v with
  | pure a =>
      refine ⟨a, v, [], ?_⟩
      rintro s rfl
      rfl
  | @bind α β p f _ _ ihp ihf =>
      obtain ⟨a, w, ds, hp⟩ := ihp v
      obtain ⟨b, x, es, hf⟩ := ihf a w
      refine ⟨b, x, ds ++ es, ?_⟩
      intro s hs
      have hmiddle : ((s.withView w).recordAll ds).view = w := by
        rw [ParseState.recordAll_view, ParseState.view_withView]
      calc
        (p >>= f) s = f (p s).1 (p s).2 := rfl
        _ = (b, (((s.withView w).recordAll ds).withView x).recordAll es) := by
          rw [hp s hs, hf _ hmiddle]
        _ = (b, (s.withView x).recordAll (ds ++ es)) := by
          rw [ParseState.recordAll_withView, ParseState.recordAll_append]
          rfl
  | look _ ih =>
      obtain ⟨a, w, ds, hf⟩ := ih v v
      refine ⟨a, w, ds, ?_⟩
      rintro s rfl
      exact hf s rfl
  | advance => exact quiet_advance.uniform v
  | report place severity code message =>
      let span := place.span (ParseState.withView default v)
      refine ⟨(), v, [⟨severity, code, span, message, []⟩], ?_⟩
      rintro s rfl
      rfl
  | giveUp a =>
      refine ⟨a, { v with gaveUp := true }, [], ?_⟩
      rintro s rfl
      rfl
  | rowTrivia _ => exact quiet_rowTrivia.uniform v
  | inline _ => exact quiet_inline.uniform v
  | tail _ => exact quiet_tail.uniform v

end Parse

/-! ## Silenced errors -/

namespace ParseState

/-- The bag has counted every error or has no room left, and errors fall silent only beyond its
limit. -/
structure Synced (s : ParseState) : Prop where
  bounded : s.bag.Bounded
  counted : s.errors ≤ s.bag.items.length ∨ s.bag.limit ≤ s.bag.items.length
  bound : s.maxErrors = 0 ∨ s.bag.limit ≤ s.maxErrors

theorem Synced.record_bag {s : ParseState} (h : s.Synced) (d : Diagnostic) :
    (s.record d).bag = s.bag.add d := by
  unfold record
  dsimp only
  split
  · rename_i hsilent
    simp only [Bool.and_eq_true, bne_iff_ne, decide_eq_true_eq] at hsilent
    -- an error falls silent only when as many others came before it as the bag can hold
    have hfull : s.bag.limit ≤ s.bag.items.length := by
      rcases h.bound with hnone | hlimit
      · exact absurd hnone hsilent.1.2
      · rcases h.counted with hcount | hfull
        · omega
        · exact hfull
    have hroom : s.bag.hasRoom = false := by simpa [Bag.hasRoom] using hfull
    simp [Bag.add, hroom]
  · rfl

theorem Synced.record {s : ParseState} (h : s.Synced) (d : Diagnostic) : (s.record d).Synced := by
  refine ⟨?_, ?_, ?_⟩
  · rw [h.record_bag]
    exact Bag.add_bounded h.bounded d
  · rw [h.record_bag, Bag.add_limit, Bag.add_items h.bounded, List.length_take]
    have herrors : (s.record d).errors ≤ s.errors + 1 := by
      unfold ParseState.record
      dsimp only
      split <;> omega
    rcases h.counted with hcount | hfull <;> simp <;> omega
  · rw [h.record_bag, Bag.add_limit]
    exact h.bound

theorem Synced.recordAll_bag {s : ParseState} (h : s.Synced) (ds : List Diagnostic) :
    (s.recordAll ds).bag = s.bag.addAll ds := by
  induction ds generalizing s with
  | nil => rfl
  | cons d rest ih =>
      have hrest := ih (h.record d)
      rw [h.record_bag] at hrest
      exact hrest

end ParseState

/-! ## Files -/

/-- One run reads the file: it gives one design and reports one list of diagnostics, and every empty
bag receives as many of the lexer's and of these, from the first on, as it can hold. -/
theorem SourceFile.exists_run (f : SourceFile) :
    ∃ (design : DesignFile) (w : ParseView) (ds : List Diagnostic),
      (∀ s : ParseState, s.view = ⟨f.tokens.1, false, default, [], false⟩ →
        DesignFile.parseTokens s = (design, (s.withView w).recordAll ds)) ∧
      ∀ bag : Bag, bag.items = [] →
        f.parse bag = (design, ⟨bag.limit, (f.tokens.2 ++ ds).take bag.limit⟩) := by
  obtain ⟨design, w, ds, hrun⟩ :=
    DesignFile.built_parseTokens.uniform ⟨f.tokens.1, false, default, [], false⟩
  refine ⟨design, w, ds, hrun, ?_⟩
  intro bag hempty
  have hbounded : bag.Bounded := by simp [Bag.Bounded, hempty]
  let start : ParseState :=
    { rest := f.tokens.1, maxErrors := bag.limit, bag := bag.addAll f.tokens.2 }
  have hbag : start.bag = ⟨bag.limit, f.tokens.2.take bag.limit⟩ := by
    simp [start, Bag.addAll_eq hbounded, hempty]
  have hsynced : (start.withView w).Synced := by
    refine ⟨?_, .inl (Nat.zero_le _), .inr ?_⟩
    · change start.bag.Bounded
      rw [hbag]
      exact List.length_take_le _ _
    · have hlimit : start.bag.limit = bag.limit := by rw [hbag]
      exact Nat.le_of_eq hlimit
  have hparse : f.parse bag = (design, ((start.withView w).recordAll ds).bag) := by
    have hstart := hrun start rfl
    change ((DesignFile.parseTokens start).1, (DesignFile.parseTokens start).2.bag) = _
    rw [hstart]
  rw [hparse, hsynced.recordAll_bag, Bag.addAll_eq hsynced.bounded]
  change (design, (⟨start.bag.limit, (start.bag.items ++ ds).take start.bag.limit⟩ : Bag)) = _
  rw [hbag, Bag.take_take_append]

/-- A file has one design and one list of diagnostics; every empty bag receives as many of these,
from the first on, as it can hold. -/
theorem SourceFile.parse_uniform (f : SourceFile) :
    ∃ (design : DesignFile) (all : List Diagnostic), ∀ bag : Bag, bag.items = [] →
      f.parse bag = (design, ⟨bag.limit, all.take bag.limit⟩) := by
  obtain ⟨design, _, ds, -, hparse⟩ := f.exists_run
  exact ⟨design, f.tokens.2 ++ ds, hparse⟩

end VhdlStyle
