import Mathlib.Data.List.Induction
import VhdlStyle.Proofs.Patch.Search

/-! # The search finds a shortest script

On each diagonal a round knows the point furthest along it that its changes can reach: no script
with as many changes gets past it. So the first round with a point where both lists are passed has
as many changes as a shortest script, and what such a script keeps is a longest common sublist. -/

namespace VhdlStyle

variable {α : Type}

namespace Edit

/-- The step passes a line of the old list alone. -/
def isDelete : Edit α → Bool
  | .delete _ => true
  | _ => false

end Edit

namespace Script

/-- The number of lines that are dropped. -/
def deletions (s : Script α) : Nat := s.countP Edit.isDelete

/-- The lines that are kept. -/
def kept (s : Script α) : List α := s.filterMap fun e => if e.isKeep then e.old? else none

/-! ## Lengths of scripts -/

@[simp] theorem cost_nil : cost ([] : Script α) = 0 := rfl

@[simp] theorem deletions_nil : deletions ([] : Script α) = 0 := rfl

@[simp] theorem cost_keep_cons (l : α) (s : Script α) : cost (.keep l :: s) = cost s := rfl

@[simp] theorem cost_delete_cons (l : α) (s : Script α) : cost (.delete l :: s) = cost s + 1 :=
  List.countP_cons_of_pos rfl

@[simp] theorem cost_insert_cons (l : α) (s : Script α) : cost (.insert l :: s) = cost s + 1 :=
  List.countP_cons_of_pos rfl

@[simp] theorem deletions_keep_cons (l : α) (s : Script α) :
    deletions (.keep l :: s) = deletions s := rfl

@[simp] theorem deletions_delete_cons (l : α) (s : Script α) :
    deletions (.delete l :: s) = deletions s + 1 := List.countP_cons_of_pos rfl

@[simp] theorem deletions_insert_cons (l : α) (s : Script α) :
    deletions (.insert l :: s) = deletions s := rfl

@[simp] theorem deletions_append (s t : Script α) :
    deletions (s ++ t) = deletions s + deletions t := List.countP_append

@[simp] theorem cost_reverse (s : Script α) : cost s.reverse = cost s := List.countP_reverse

/-- Each change passes one line, a deletion one of the old list. -/
theorem length_source_add_cost (s : Script α) :
    (source s).length + cost s = (target s).length + 2 * deletions s := by
  induction s with
  | nil => rfl
  | cons e s ih => cases e <;> simp <;> omega

/-- Each line is passed by a change, or kept and passed on both sides. -/
theorem cost_add_kept (s : Script α) :
    cost s + 2 * (kept s).length = (source s).length + (target s).length := by
  induction s with
  | nil => rfl
  | cons e s ih => cases e <;> simp [kept, Edit.isKeep, Edit.old?] at ih ⊢ <;> omega

theorem kept_sublist_source (s : Script α) : (kept s).Sublist (source s) := by
  induction s with
  | nil => exact List.Sublist.refl []
  | cons e s ih =>
      cases e with
      | keep l => exact ih.cons_cons l
      | delete l => exact ih.cons l
      | insert l => exact ih

theorem kept_sublist_target (s : Script α) : (kept s).Sublist (target s) := by
  induction s with
  | nil => exact List.Sublist.refl []
  | cons e s ih =>
      cases e with
      | keep l => exact ih.cons_cons l
      | delete l => exact ih
      | insert l => exact ih.cons l

end Script

/-! ## Points that cannot go on -/

namespace Reach

/-- The lists behind the point go on with different lines, if both do. -/
def Stuck (r : Reach α) : Prop :=
  ∀ a old b new, r.oldRest = a :: old → r.newRest = b :: new → a ≠ b

section

variable [BEq α] [LawfulBEq α]

theorem slide_stuck (passed : Nat) (old new : List α) (steps : List (Edit α)) :
    (slide passed old new steps).Stuck := by
  fun_induction slide passed old new steps with
  | case1 passed a old b new steps heq ih => exact ih
  | case2 passed a old b new steps hne =>
      rintro a' old' b' new' ⟨rfl, rfl⟩ ⟨rfl, rfl⟩ rfl
      exact hne (beq_self_eq_true a)
  | case3 passed old new steps hshort =>
      intro a old' b new' hold hnew
      exact absurd hnew (hshort a old' b new' hold)

theorem insert_stuck (r : Reach α) : r.insert.Stuck := by
  unfold insert
  split
  case h_1 b rest hrest => exact slide_stuck _ _ _ _
  case h_2 hrest =>
    intro a old b new hold hnew
    simp [hrest] at hnew

theorem delete_stuck (r : Reach α) : r.delete.Stuck := by
  unfold delete
  split
  case h_1 a rest hrest => exact slide_stuck _ _ _ _
  case h_2 hrest =>
    intro a old b new hold hnew
    simp [hrest] at hold

theorem le_slide_passed (passed : Nat) (old new : List α) (steps : List (Edit α)) :
    passed ≤ (slide passed old new steps).passed := by
  obtain ⟨common, _, _, _, _, hslide⟩ := exists_slide passed old new steps
  rw [hslide]
  exact Nat.le_add_right _ _

theorem le_insert_passed (r : Reach α) : r.passed ≤ r.insert.passed := by
  unfold insert
  split
  · exact le_slide_passed _ _ _ _
  · exact Nat.le_refl _

theorem lt_delete_passed (r : Reach α) : r.passed < r.delete.passed := by
  unfold delete
  split
  · exact le_slide_passed _ _ _ _
  · exact Nat.lt_succ_self _

end

end Reach

/-! ## Where a point comes from -/

namespace Script

/-- Point `i` of a round after the round `reached`: from the neighbour with more deletions by an
insertion when that one is further, and else from the one with fewer by a deletion. -/
inductive Origin [BEq α] (reached : List (Reach α)) : Nat → Reach α → Prop where
  | insert {i : Nat} {right : Reach α} (hright : reached[i]? = some right)
      (hleft : ∀ j left, i = j + 1 → reached[j]? = some left → left.passed < right.passed) :
      Origin reached i right.insert
  | delete {i : Nat} {left : Reach α} (hleft : reached[i]? = some left)
      (hright : ∀ right, reached[i + 1]? = some right → right.passed ≤ left.passed) :
      Origin reached (i + 1) left.delete

section

variable [BEq α]

theorem origin_between {left : Reach α} {rest : List (Reach α)} {i : Nat} {r : Reach α}
    (h : (between left rest)[i]? = some r) : Origin (left :: rest) (i + 1) r := by
  induction rest generalizing left i with
  | nil =>
      cases i with
      | zero =>
          obtain rfl : left.delete = r := by simpa [between] using h
          exact .delete rfl (by simp)
      | succ i => simp [between] at h
  | cons right rest ih =>
      cases i with
      | zero =>
          rw [between, List.getElem?_cons_zero, Option.some.injEq] at h
          rw [← h]
          split
          · rename_i hlt
            refine .insert rfl ?_
            rintro j q hj hq
            obtain rfl : j = 0 := by omega
            obtain rfl : left = q := by simpa using hq
            exact hlt
          · rename_i hle
            refine .delete rfl ?_
            intro q hq
            obtain rfl : right = q := by simpa using hq
            exact Nat.le_of_not_lt hle
      | succ i =>
          rw [between, List.getElem?_cons_succ] at h
          cases ih h with
          | insert hright hleft =>
              refine .insert hright ?_
              rintro j q hj hq
              obtain rfl : j = i + 1 := by omega
              exact hleft i q rfl hq
          | delete hleft hright => exact .delete hleft hright

theorem origin_of_nextRound {reached : List (Reach α)} {i : Nat} {r : Reach α}
    (h : (nextRound reached)[i]? = some r) : Origin reached i r := by
  cases reached with
  | nil => simp [nextRound] at h
  | cons first rest =>
      cases i with
      | zero =>
          obtain rfl : first.insert = r := by simpa [nextRound] using h
          exact .insert rfl (by simp)
      | succ i =>
          rw [nextRound, List.getElem?_cons_succ] at h
          exact origin_between h

variable (old new : List α)

/-- The points of round `d`. -/
def roundAt : Nat → List (Reach α)
  | 0 => [Reach.slide 0 old new []]
  | d + 1 => nextRound (roundAt d)

end

section

variable [BEq α] [LawfulBEq α] {old new : List α}

variable (old new) in
theorem round_roundAt (d : Nat) : Round old new d (roundAt old new d) := by
  induction d with
  | zero => exact round_start
  | succ d ih => exact ih.next

theorem leads_roundAt {d i : Nat} {r : Reach α} (h : (roundAt old new d)[i]? = some r) :
    r.Leads old new d i := (round_roundAt old new d).leads i r h

theorem le_of_roundAt {d i : Nat} {r : Reach α} (h : (roundAt old new d)[i]? = some r) : i ≤ d := by
  obtain ⟨hlt, -⟩ := List.getElem?_eq_some_iff.mp h
  rw [(round_roundAt old new d).length] at hlt
  exact Nat.le_of_lt_succ hlt

theorem stuck_roundAt {d i : Nat} {r : Reach α} (h : (roundAt old new d)[i]? = some r) :
    r.Stuck := by
  cases d with
  | zero =>
      obtain ⟨-, rfl⟩ : i = 0 ∧ Reach.slide 0 old new [] = r := by
        cases i <;> simp_all [roundAt]
      exact Reach.slide_stuck _ _ _ _
  | succ d =>
      cases origin_of_nextRound h with
      | insert => exact Reach.insert_stuck _
      | delete => exact Reach.delete_stuck _

variable (old new) in
theorem exists_roundAt {d i : Nat} (h : i ≤ d) : ∃ r, (roundAt old new d)[i]? = some r := by
  have hlength := (round_roundAt old new d).length
  exact ⟨_, List.getElem?_eq_getElem (by omega)⟩

/-! ## No script gets further -/

theorem exists_inserted {d i : Nat} {r : Reach α} (h : (roundAt old new d)[i]? = some r) :
    ∃ r', (roundAt old new (d + 1))[i]? = some r' ∧ r.passed ≤ r'.passed := by
  obtain ⟨r', hr'⟩ := exists_roundAt old new (Nat.le_succ_of_le (le_of_roundAt h))
  refine ⟨r', hr', ?_⟩
  cases origin_of_nextRound hr' with
  | @insert _ right hright hleft =>
      obtain rfl : right = r := Option.some.inj (hright.symm.trans h)
      exact right.le_insert_passed
  | @delete i left hleft hright =>
      exact Nat.le_trans (hright r h) (Nat.le_of_lt left.lt_delete_passed)

theorem exists_deleted {d i : Nat} {r : Reach α} (h : (roundAt old new d)[i]? = some r) :
    ∃ r', (roundAt old new (d + 1))[i + 1]? = some r' ∧ r.passed < r'.passed := by
  obtain ⟨r', hr'⟩ := exists_roundAt old new (Nat.succ_le_succ (le_of_roundAt h))
  refine ⟨r', hr', ?_⟩
  cases origin_of_nextRound hr' with
  | @insert _ right hright hleft =>
      exact Nat.lt_of_lt_of_le (hleft i r rfl h) right.le_insert_passed
  | @delete _ left hleft hright =>
      obtain rfl : left = r := Option.some.inj (hleft.symm.trans h)
      exact left.lt_delete_passed

/-- A line that both lists go on with is passed already. -/
theorem lt_passed_of_common {d i : Nat} {r : Reach α} (h : (roundAt old new d)[i]? = some r)
    {x y : Nat} {l : α} (hdiagonal : x + d = y + 2 * i) (hle : x ≤ r.passed)
    (hold : old[x]? = some l) (hnew : new[y]? = some l) : x < r.passed := by
  obtain ⟨passedNew, hrest, hrest', hplace, -⟩ := (leads_roundAt h).place
  rcases Nat.lt_or_eq_of_le hle with hlt | rfl
  · exact hlt
  · obtain rfl : passedNew = y := by omega
    have hstuck := stuck_roundAt h
    obtain ⟨hx, holdx⟩ := List.getElem?_eq_some_iff.mp hold
    obtain ⟨hy, hnewy⟩ := List.getElem?_eq_some_iff.mp hnew
    rw [List.drop_eq_getElem_cons hx, holdx] at hrest
    rw [List.drop_eq_getElem_cons hy, hnewy] at hrest'
    exact absurd rfl (hstuck l _ l _ hrest hrest')

/-- A script from the front of both lists does not get past the point of its round and diagonal. -/
theorem furthest (s : Script α) (oldRest newRest : List α) (hold : source s ++ oldRest = old)
    (hnew : target s ++ newRest = new) :
    ∃ r, (roundAt old new (cost s))[deletions s]? = some r ∧ (source s).length ≤ r.passed := by
  induction s using List.reverseRecOn generalizing oldRest newRest with
  | nil => exact ⟨_, rfl, Nat.zero_le _⟩
  | append_singleton s e ih =>
      have hlengths := length_source_add_cost s
      cases e with
      | keep l =>
          obtain ⟨r, hr, hle⟩ := ih (l :: oldRest) (l :: newRest)
            (by simpa using hold) (by simpa using hnew)
          have hlt : (source s).length < r.passed :=
            lt_passed_of_common (l := l) hr hlengths hle (by simp [← hold]) (by simp [← hnew])
          exact ⟨r, by simpa using hr, by simpa [Nat.succ_le_iff] using hlt⟩
      | delete l =>
          obtain ⟨r, hr, hle⟩ := ih (l :: oldRest) newRest
            (by simpa using hold) (by simpa using hnew)
          obtain ⟨r', hr', hlt⟩ := exists_deleted hr
          refine ⟨r', by simpa using hr', ?_⟩
          simp
          omega
      | insert l =>
          obtain ⟨r, hr, hle⟩ := ih oldRest (l :: newRest)
            (by simpa using hold) (by simpa using hnew)
          obtain ⟨r', hr', hle'⟩ := exists_inserted hr
          exact ⟨r', by simpa using hr', by simpa using Nat.le_trans hle hle'⟩

/-- In the round of a script that passes both lists some point is done. -/
theorem exists_isDone {s : Script α} (hold : source s = old) (hnew : target s = new) :
    ∃ r ∈ roundAt old new (cost s), r.isDone = true := by
  obtain ⟨r, hr, hle⟩ :=
    furthest s [] [] (by simpa using hold) (by simpa using hnew)
  have hlengths := length_source_add_cost s
  obtain ⟨passedNew, hrest, hrest', hplace, -⟩ := (leads_roundAt hr).place
  rw [hold, hnew] at hlengths
  rw [hold] at hle
  refine ⟨r, List.mem_iff_getElem?.mpr ⟨_, hr⟩, ?_⟩
  rw [Reach.isDone, hrest, hrest', List.drop_eq_nil_of_le hle, List.drop_eq_nil_of_le (by omega)]
  rfl

/-! ## Changes and steps beside the grid -/

/-- Each change of a point is a step of its script, or leads one line further beyond the end of a
list. -/
def Spent (old new : List α) (d i : Nat) (r : Reach α) : Prop :=
  ∃ passedNew, r.passed + d = passedNew + 2 * i ∧ r.oldRest.length = old.length - r.passed ∧
    r.newRest.length = new.length - passedNew ∧
    cost r.steps + (r.passed - old.length) + (passedNew - new.length) = d

theorem Spent.slide {d i passed : Nat} {oldRest newRest : List α} {steps : List (Edit α)}
    (h : Spent old new d i ⟨passed, oldRest, newRest, steps⟩) :
    Spent old new d i (Reach.slide passed oldRest newRest steps) := by
  obtain ⟨common, old', new', rfl, rfl, hslide⟩ :=
    Reach.exists_slide passed oldRest newRest steps
  obtain ⟨passedNew, hdiagonal, hold, hnew, hcost⟩ := h
  have hkeeps : cost ((common.map Edit.keep).reverse ++ steps) = cost steps := by
    simp [cost, Edit.isKeep]
  simp only [List.length_append] at hdiagonal hold hnew hcost
  rw [hslide]
  refine ⟨passedNew + common.length, ?_, ?_, ?_, ?_⟩
  all_goals
    dsimp only
    try rw [hkeeps]
    omega

theorem Spent.insert {d i : Nat} {r : Reach α} (h : Spent old new d i r) :
    Spent old new (d + 1) i r.insert := by
  obtain ⟨passedNew, hdiagonal, hold, hnew, hcost⟩ := h
  unfold Reach.insert
  split
  case h_1 b rest hrest =>
    rw [hrest, List.length_cons] at hnew
    refine Spent.slide ⟨passedNew + 1, ?_, hold, ?_, ?_⟩
    · dsimp only
      omega
    · dsimp only
      omega
    · rw [cost_insert_cons]
      dsimp only
      omega
  case h_2 hrest =>
    rw [hrest, List.length_nil] at hnew
    exact ⟨passedNew + 1, by omega, hold, by rw [hrest, List.length_nil]; omega, by omega⟩

theorem Spent.delete {d i : Nat} {r : Reach α} (h : Spent old new d i r) :
    Spent old new (d + 1) (i + 1) r.delete := by
  obtain ⟨passedNew, hdiagonal, hold, hnew, hcost⟩ := h
  unfold Reach.delete
  split
  case h_1 a rest hrest =>
    rw [hrest, List.length_cons] at hold
    refine Spent.slide ⟨passedNew, ?_, ?_, hnew, ?_⟩
    · dsimp only
      omega
    · dsimp only
      omega
    · rw [cost_delete_cons]
      dsimp only
      omega
  case h_2 hrest =>
    rw [hrest, List.length_nil] at hold
    refine ⟨passedNew, ?_, ?_, hnew, ?_⟩
    · dsimp only
      omega
    · rw [hrest, List.length_nil]
      dsimp only
      omega
    · dsimp only
      omega

theorem spent_roundAt {d i : Nat} {r : Reach α} (h : (roundAt old new d)[i]? = some r) :
    Spent old new d i r := by
  induction d generalizing i r with
  | zero =>
      have hstart : Spent old new 0 0 ⟨0, old, new, []⟩ := ⟨0, rfl, rfl, rfl, by simp⟩
      obtain ⟨rfl, rfl⟩ : i = 0 ∧ Reach.slide 0 old new [] = r := by
        cases i <;> simp_all [roundAt]
      exact hstart.slide
  | succ d ih =>
      cases origin_of_nextRound h with
      | insert hright _ => exact (ih hright).insert
      | delete hleft _ => exact (ih hleft).delete

/-! ## The script that is found -/

/-- The search ends in the first round with a point that is done, with the script of that point. -/
theorem search_roundAt (old new : List α) {rounds d : Nat} (hrounds : d + rounds = old.length + new.length)
    (hnone : ∀ e < d, ∀ r ∈ roundAt old new e, r.isDone = false) :
    ∃ (d' i : Nat) (r : Reach α), (roundAt old new d')[i]? = some r ∧ r.isDone = true ∧
      d' ≤ old.length + new.length ∧
      search (rounds + 1) (roundAt old new d) = r.steps.reverse ∧
      ∀ e < d', ∀ q ∈ roundAt old new e, q.isDone = false := by
  induction rounds generalizing d with
  | zero =>
      obtain rfl : d = old.length + new.length := hrounds
      obtain ⟨r, hr⟩ := Option.ne_none_iff_exists'.mp
        (round_roundAt old new _).exists_find
      obtain ⟨i, hi⟩ := List.mem_iff_getElem?.mp (List.mem_of_find?_eq_some hr)
      refine ⟨_, i, r, hi, List.find?_some hr, Nat.le_refl _, ?_, hnone⟩
      rw [search, hr]
  | succ rounds ih =>
      cases hfind : (roundAt old new d).find? Reach.isDone with
      | some r =>
          obtain ⟨i, hi⟩ := List.mem_iff_getElem?.mp (List.mem_of_find?_eq_some hfind)
          refine ⟨d, i, r, hi, List.find?_some hfind, by omega, ?_, hnone⟩
          rw [search, hfind]
      | none =>
          have hround : ∀ r ∈ roundAt old new d, r.isDone = false := by
            simpa using List.find?_eq_none.mp hfind
          obtain ⟨d', i, r, hr⟩ := ih (d := d + 1) (by omega) fun e he => by
            rcases Nat.lt_or_eq_of_le (Nat.le_of_lt_succ he) with hlt | rfl
            · exact hnone e hlt
            · exact hround
          refine ⟨d', i, r, ?_⟩
          rw [search, hfind]
          exact hr

/-- Point `i` of round `d` is the end of both lists, and no point of an earlier round is done. -/
structure Found (old new : List α) (d i : Nat) (r : Reach α) : Prop where
  point : (roundAt old new d)[i]? = some r
  done : r.isDone = true
  first : ∀ e < d, ∀ q ∈ roundAt old new e, q.isDone = false

/-- The rounds before the one that the search ends in have fewer changes than any script. -/
theorem Found.le_cost {d i : Nat} {r : Reach α} (h : Found old new d i r) {s : Script α}
    (hold : source s = old) (hnew : target s = new) : d ≤ cost s := by
  obtain ⟨q, hq, hqdone⟩ := exists_isDone hold hnew
  by_contra hlt
  have hnot := h.first (cost s) (by omega) q hq
  rw [hqdone] at hnot
  exact Bool.false_ne_true hnot.symm

/-- The first point that is done lies in the grid: beyond it, its script would have fewer changes
than its round, and an earlier round would have had a point that is done. -/
theorem Found.cost_eq {d i : Nat} {r : Reach α} (h : Found old new d i r) :
    cost r.steps = d ∧ r.passed = old.length ∧ old.length + d = new.length + 2 * i := by
  have hleads := leads_roundAt h.point
  obtain ⟨passedNew, hdiagonal, hold, hnew, hcost⟩ := spent_roundAt h.point
  have hdone := h.done
  rw [Reach.isDone, Bool.and_eq_true, List.isEmpty_iff, List.isEmpty_iff] at hdone
  rw [hdone.1, List.length_nil] at hold
  rw [hdone.2, List.length_nil] at hnew
  have hle : d ≤ cost r.steps.reverse :=
    h.le_cost (hleads.source_of_isDone h.done) (hleads.target_of_isDone h.done)
  rw [cost_reverse] at hle
  omega

variable (old new) in
theorem exists_found : ∃ d i r, Found old new d i r ∧ d ≤ old.length + new.length ∧
    shortest old new = r.steps.reverse := by
  obtain ⟨d, i, r, hr, hdone, hle, hsearch, hfirst⟩ :=
    search_roundAt old new (Nat.zero_add _) (by simp)
  exact ⟨d, i, r, ⟨hr, hdone, hfirst⟩, hle, hsearch⟩

/-- No script has fewer changes than the one that is found. -/
theorem cost_shortest_le {s : Script α} (hold : source s = old) (hnew : target s = new) :
    cost (shortest old new) ≤ cost s := by
  obtain ⟨d, i, r, hfound, -, hshortest⟩ := exists_found old new
  rw [hshortest, cost_reverse, hfound.cost_eq.1]
  exact hfound.le_cost hold hnew

end

/-! ## Longest common sublists -/

/-- The list is a common sublist of both, and no other one is longer. -/
structure LongestCommon (old new common : List α) : Prop where
  of_old : common.Sublist old
  of_new : common.Sublist new
  longest : ∀ other : List α, other.Sublist old → other.Sublist new → other.length ≤ common.length

theorem inserts (ls : List α) :
    source (ls.map Edit.insert) = [] ∧ target (ls.map Edit.insert) = ls ∧
      cost (ls.map Edit.insert) = ls.length := by
  induction ls with
  | nil => exact ⟨rfl, rfl, rfl⟩
  | cons l ls ih =>
      obtain ⟨hsource, htarget, hcost⟩ := ih
      simp [hsource, htarget, hcost]

/-- A script that keeps a common sublist and changes everything else. -/
theorem exists_script_of_sublists {common old new : List α} (hold : common.Sublist old)
    (hnew : common.Sublist new) : ∃ s : Script α, source s = old ∧ target s = new ∧
      cost s + 2 * common.length = old.length + new.length := by
  induction hold generalizing new with
  | slnil =>
      obtain ⟨hsource, htarget, hcost⟩ := inserts new
      exact ⟨new.map .insert, hsource, htarget, by simpa using hcost⟩
  | cons a _ ih =>
      obtain ⟨s, hsource, htarget, hcost⟩ := ih hnew
      refine ⟨.delete a :: s, by simp [hsource], by simp [htarget], ?_⟩
      rw [cost_delete_cons, List.length_cons]
      omega
  | cons_cons a _ ih =>
      -- the line is kept where it comes first in the new list
      obtain ⟨front, back, rfl, hmem, hback⟩ := List.cons_sublist_iff.mp hnew
      obtain ⟨before, behind, rfl⟩ := List.append_of_mem hmem
      obtain ⟨s, hsource, htarget, hcost⟩ := ih (hback.trans (List.sublist_append_right behind back))
      obtain ⟨hnone, hbefore, hinserts⟩ := inserts before
      refine ⟨before.map .insert ++ .keep a :: s, by simp [hnone, hsource],
        by simp [hbefore, htarget], ?_⟩
      simp only [cost_append, hinserts, cost_keep_cons, List.length_append, List.length_cons]
        at hcost ⊢
      omega

section

variable [BEq α] [LawfulBEq α]

/-- What the script that is found keeps is a longest common sublist, so its cost is the number of
lines that such a list leaves over on both sides. -/
theorem longestCommon_shortest (old new : List α) :
    LongestCommon old new (kept (shortest old new)) ∧
      cost (shortest old new) + 2 * (kept (shortest old new)).length =
        old.length + new.length := by
  have hkept := cost_add_kept (shortest old new)
  have hold := kept_sublist_source (shortest old new)
  have hnew := kept_sublist_target (shortest old new)
  rw [source_shortest] at hold hkept
  rw [target_shortest] at hnew hkept
  refine ⟨⟨hold, hnew, ?_⟩, hkept⟩
  intro other hother hother'
  obtain ⟨s, hsource, htarget, hcost⟩ := exists_script_of_sublists hother hother'
  have hle := cost_shortest_le hsource htarget
  omega

end

end Script

end VhdlStyle
