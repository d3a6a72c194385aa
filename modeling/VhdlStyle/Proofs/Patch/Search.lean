import Mathlib.Data.List.Basic
import VhdlStyle.Patch.Shortest

/-! # The search for a script

Every point of a round carries a script that leads to it, and a point of round `d` has passed at
least `d` lines of both lists together. So the search ends within as many rounds as there are lines,
with a script from the old list to the new one. -/

namespace VhdlStyle

variable {α : Type}

namespace Script

@[simp] theorem source_keeps (ls : List α) : source (ls.map Edit.keep) = ls := by
  induction ls with
  | nil => rfl
  | cons l ls ih => exact congrArg (l :: ·) ih

@[simp] theorem target_keeps (ls : List α) : target (ls.map Edit.keep) = ls := by
  induction ls with
  | nil => rfl
  | cons l ls ih => exact congrArg (l :: ·) ih

@[simp] theorem source_keep_cons (l : α) (s : Script α) :
    source (.keep l :: s) = l :: source s := rfl

@[simp] theorem source_delete_cons (l : α) (s : Script α) :
    source (.delete l :: s) = l :: source s := rfl

@[simp] theorem source_insert_cons (l : α) (s : Script α) :
    source (.insert l :: s) = source s := rfl

@[simp] theorem target_keep_cons (l : α) (s : Script α) :
    target (.keep l :: s) = l :: target s := rfl

@[simp] theorem target_delete_cons (l : α) (s : Script α) :
    target (.delete l :: s) = target s := rfl

@[simp] theorem target_insert_cons (l : α) (s : Script α) :
    target (.insert l :: s) = l :: target s := rfl

end Script

/-! ## Points -/

namespace Reach

/-- The point lies on diagonal `i` of round `d`, counted from the one with the most insertions. Its
script leads to it, and both lists go on behind it. -/
structure Leads (old new : List α) (d i : Nat) (r : Reach α) : Prop where
  source : Script.source r.steps.reverse ++ r.oldRest = old
  target : Script.target r.steps.reverse ++ r.newRest = new
  place : ∃ passedNew, r.oldRest = old.drop r.passed ∧ r.newRest = new.drop passedNew ∧
    r.passed + d = passedNew + 2 * i ∧ d ≤ r.passed + passedNew

section

variable [BEq α] [LawfulBEq α]

/-- A slide keeps lines that both lists have in common. -/
theorem exists_slide (passed : Nat) (old new : List α) (steps : List (Edit α)) :
    ∃ common oldRest newRest, old = common ++ oldRest ∧ new = common ++ newRest ∧
      slide passed old new steps =
        ⟨passed + common.length, oldRest, newRest, (common.map Edit.keep).reverse ++ steps⟩ := by
  fun_induction slide passed old new steps with
  | case1 passed a old b new steps heq ih =>
      obtain ⟨common, oldRest, newRest, hold, hnew, hslide⟩ := ih
      obtain rfl : a = b := eq_of_beq heq
      refine ⟨a :: common, oldRest, newRest, by simp [hold], by simp [hnew], ?_⟩
      simp only [hslide, List.length_cons, List.map_cons, List.reverse_cons, List.append_assoc,
        List.singleton_append, Reach.mk.injEq, and_true]
      omega
  | case2 passed a old b new steps hne => exact ⟨[], _, _, rfl, rfl, rfl⟩
  | case3 passed old new steps hshort => exact ⟨[], _, _, rfl, rfl, rfl⟩

/-- A slide stays on its diagonal. -/
theorem Leads.slide {old new : List α} {d i passed : Nat} {oldRest newRest : List α}
    {steps : List (Edit α)} (h : Leads old new d i ⟨passed, oldRest, newRest, steps⟩) :
    Leads old new d i (Reach.slide passed oldRest newRest steps) := by
  obtain ⟨common, old', new', rfl, rfl, hslide⟩ := exists_slide passed oldRest newRest steps
  obtain ⟨passedNew, hold, hnew, hdiagonal, hfar⟩ := h.place
  rw [hslide]
  refine ⟨by simpa using h.source, by simpa using h.target, passedNew + common.length,
    ?_, ?_, ?_, ?_⟩
  · dsimp only at hold ⊢
    rw [← List.drop_drop, ← hold, List.drop_left]
  · dsimp only at hnew ⊢
    rw [← List.drop_drop, ← hnew, List.drop_left]
  · dsimp only at hdiagonal ⊢
    omega
  · dsimp only at hfar ⊢
    omega

theorem Leads.delete {old new : List α} {d i : Nat} {r : Reach α} (h : Leads old new d i r) :
    Leads old new (d + 1) (i + 1) r.delete := by
  obtain ⟨passedNew, hold, hnew, hdiagonal, hfar⟩ := h.place
  rw [Reach.delete]
  split
  case h_1 a rest hrest =>
    have hdrop : rest = old.drop (r.passed + 1) := by
      rw [← List.drop_drop, ← hold, hrest]
      rfl
    refine Leads.slide ⟨?_, by simpa using h.target, passedNew, hdrop, hnew, ?_, ?_⟩
    · simpa [hrest] using h.source
    · dsimp only
      omega
    · dsimp only
      omega
  case h_2 hrest =>
    have hdrop : r.oldRest = old.drop (r.passed + 1) := by
      rw [← List.drop_drop, ← hold, hrest]
      rfl
    refine ⟨h.source, h.target, passedNew, hdrop, hnew, ?_, ?_⟩
    · dsimp only
      omega
    · dsimp only
      omega

theorem Leads.insert {old new : List α} {d i : Nat} {r : Reach α} (h : Leads old new d i r) :
    Leads old new (d + 1) i r.insert := by
  obtain ⟨passedNew, hold, hnew, hdiagonal, hfar⟩ := h.place
  rw [Reach.insert]
  split
  case h_1 b rest hrest =>
    have hdrop : rest = new.drop (passedNew + 1) := by
      rw [← List.drop_drop, ← hnew, hrest]
      rfl
    refine Leads.slide ⟨by simpa using h.source, ?_, passedNew + 1, hold, hdrop, ?_, ?_⟩
    · simpa [hrest] using h.target
    · dsimp only
      omega
    · dsimp only
      omega
  case h_2 hrest =>
    have hdrop : r.newRest = new.drop (passedNew + 1) := by
      rw [← List.drop_drop, ← hnew, hrest]
      rfl
    exact ⟨h.source, h.target, passedNew + 1, hold, hdrop, by omega, by omega⟩

end

theorem Leads.source_of_isDone {old new : List α} {d i : Nat} {r : Reach α}
    (h : Leads old new d i r) (hdone : r.isDone = true) : Script.source r.steps.reverse = old := by
  rw [isDone, Bool.and_eq_true, List.isEmpty_iff] at hdone
  simpa [hdone.1] using h.source

theorem Leads.target_of_isDone {old new : List α} {d i : Nat} {r : Reach α}
    (h : Leads old new d i r) (hdone : r.isDone = true) : Script.target r.steps.reverse = new := by
  rw [isDone, Bool.and_eq_true, List.isEmpty_iff, List.isEmpty_iff] at hdone
  simpa [hdone.2] using h.target

/-- The diagonal that ends where both lists end is passed once all lines are. -/
theorem Leads.isDone {old new : List α} {r : Reach α}
    (h : Leads old new (old.length + new.length) old.length r) : r.isDone = true := by
  obtain ⟨passedNew, hold, hnew, hdiagonal, hfar⟩ := h.place
  rw [Reach.isDone, hold, hnew, List.drop_eq_nil_of_le (by omega),
    List.drop_eq_nil_of_le (by omega)]
  rfl

end Reach

/-! ## Rounds -/

namespace Script

/-- The points of round `d`. -/
structure Round (old new : List α) (d : Nat) (reached : List (Reach α)) : Prop where
  length : reached.length = d + 1
  leads : ∀ i (r : Reach α), reached[i]? = some r → r.Leads old new d i

variable [BEq α]

theorem length_between (last : Reach α) (rest : List (Reach α)) :
    (between last rest).length = rest.length + 1 := by
  induction rest generalizing last with
  | nil => rfl
  | cons right rest ih => rw [between, List.length_cons, ih, List.length_cons]

variable [LawfulBEq α] {old new : List α}

theorem leads_between {d i : Nat} {left : Reach α} {rest : List (Reach α)}
    (hleft : left.Leads old new d i)
    (hrest : ∀ j (r : Reach α), rest[j]? = some r → r.Leads old new d (i + 1 + j)) :
    ∀ j (r : Reach α), (between left rest)[j]? = some r → r.Leads old new (d + 1) (i + 1 + j) := by
  induction rest generalizing i left with
  | nil =>
      intro j r hr
      cases j with
      | zero =>
          obtain rfl : left.delete = r := by simpa [between] using hr
          exact hleft.delete
      | succ j => simp [between] at hr
  | cons right rest ih =>
      have hright : right.Leads old new d (i + 1) := hrest 0 right rfl
      intro j r hr
      cases j with
      | zero =>
          rw [between, List.getElem?_cons_zero, Option.some.injEq] at hr
          rw [← hr]
          split
          · exact hright.insert
          · exact hleft.delete
      | succ j =>
          rw [between, List.getElem?_cons_succ] at hr
          have htail := ih hright (fun k q hq => by
            have hq' := hrest (k + 1) q hq
            rwa [show i + 1 + 1 + k = i + 1 + (k + 1) by omega]) j r hr
          rwa [show i + 1 + 1 + j = i + 1 + (j + 1) by omega] at htail

theorem Round.next {d : Nat} {reached : List (Reach α)} (h : Round old new d reached) :
    Round old new (d + 1) (nextRound reached) := by
  cases reached with
  | nil => exact absurd h.length (by simp)
  | cons first rest =>
      have hfirst : first.Leads old new d 0 := h.leads 0 first rfl
      refine ⟨?_, ?_⟩
      · rw [nextRound, List.length_cons, length_between]
        exact congrArg (· + 1) h.length
      · intro i r hr
        cases i with
        | zero =>
            obtain rfl : first.insert = r := by simpa [nextRound] using hr
            exact hfirst.insert
        | succ i =>
            rw [nextRound, List.getElem?_cons_succ] at hr
            have hbetween := leads_between hfirst (fun j q hq => by
              have hq' := h.leads (j + 1) q hq
              rwa [show 0 + 1 + j = j + 1 by omega]) i r hr
            rwa [show 0 + 1 + i = i + 1 by omega] at hbetween

omit [BEq α] [LawfulBEq α] in
/-- A point that is done carries a script from the old list to the new one. -/
theorem Round.of_find {d : Nat} {reached : List (Reach α)} (h : Round old new d reached)
    {r : Reach α} (hfind : reached.find? Reach.isDone = some r) :
    source r.steps.reverse = old ∧ target r.steps.reverse = new := by
  obtain ⟨i, hi⟩ := List.mem_iff_getElem?.mp (List.mem_of_find?_eq_some hfind)
  have hdone := List.find?_some hfind
  exact ⟨(h.leads i r hi).source_of_isDone hdone, (h.leads i r hi).target_of_isDone hdone⟩

omit [BEq α] [LawfulBEq α] in
/-- In the round that has as many changes as there are lines, some point is done. -/
theorem Round.exists_find {reached : List (Reach α)}
    (h : Round old new (old.length + new.length) reached) :
    reached.find? Reach.isDone ≠ none := by
  have hlt : old.length < reached.length := by
    have := h.length
    omega
  have hdone : reached[old.length].isDone = true :=
    (h.leads old.length _ (List.getElem?_eq_getElem hlt)).isDone
  intro hnone
  exact List.find?_eq_none.mp hnone _ (List.getElem_mem hlt) hdone

/-- The search finds a script, if the rounds left reach the one in which some point must be done. -/
theorem search_leads {rounds d : Nat} {reached : List (Reach α)} (h : Round old new d reached)
    (hrounds : d + rounds = old.length + new.length) :
    source (search (rounds + 1) reached) = old ∧ target (search (rounds + 1) reached) = new := by
  induction rounds generalizing d reached with
  | zero =>
      obtain rfl : d = old.length + new.length := hrounds
      rw [search]
      split
      case h_1 r hfind => exact h.of_find hfind
      case h_2 hfind => exact absurd hfind h.exists_find
  | succ rounds ih =>
      rw [search]
      split
      case h_1 r hfind => exact h.of_find hfind
      case h_2 => exact ih h.next (by omega)

theorem round_start : Round old new 0 [Reach.slide 0 old new []] := by
  have hstart : (⟨0, old, new, []⟩ : Reach α).Leads old new 0 0 :=
    ⟨rfl, rfl, 0, rfl, rfl, rfl, Nat.le_refl 0⟩
  refine ⟨rfl, ?_⟩
  intro i r hr
  cases i with
  | zero =>
      obtain rfl : Reach.slide 0 old new [] = r := by simpa using hr
      exact hstart.slide
  | succ i => simp at hr

variable (old new)

/-- A shortest script leads from the old list … -/
@[simp] theorem source_shortest : source (shortest old new) = old :=
  (search_leads round_start (Nat.zero_add _)).1

/-- … to the new one. -/
@[simp] theorem target_shortest : target (shortest old new) = new :=
  (search_leads round_start (Nat.zero_add _)).2

end Script

end VhdlStyle
