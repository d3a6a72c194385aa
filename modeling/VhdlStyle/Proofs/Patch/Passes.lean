import VhdlStyle.Proofs.Patch.Furthest
import VhdlStyle.Text.Bytes

/-! # The search in arrays

The search as two passes over arrays, with every access checked. The forward pass keeps one number
for each diagonal, how many old lines are passed there, and overwrites it in place: a round reads
the diagonals of the other parity only. The backward pass reads the numbers as they were before
each round and walks from the end to the start. No access misses its array, and the walk is the
script of the search by points, with numbers in place of lines. -/

namespace VhdlStyle.Patch

open Script

variable {α : Type}

/-! ## Arrays -/

section

variable {β : Type}

/-- The element at an index, if the index lies in the array. -/
def get? (a : Array β) (i : Int) : Option β := if 0 ≤ i then a[i.toNat]? else none

/-- The array with another element at an index, if the index lies in the array. -/
def set? (a : Array β) (i : Int) (x : β) : Option (Array β) :=
  if 0 ≤ i ∧ i < a.size then some (a.setIfInBounds i.toNat x) else none

theorem get?_natCast (a : Array β) (i : Nat) : get? a i = a[i]? := by simp [get?]

theorem exists_set? {a : Array β} {i : Int} (hle : 0 ≤ i) (hlt : i < a.size) (x : β) :
    ∃ b, set? a i x = some b ∧ b.size = a.size ∧ get? b i = some x ∧
      ∀ j, j ≠ i → get? b j = get? a j := by
  refine ⟨a.setIfInBounds i.toNat x, if_pos ⟨hle, hlt⟩, Array.size_setIfInBounds, ?_, ?_⟩
  · rw [get?, if_pos hle, Array.getElem?_setIfInBounds_self_of_lt (by omega)]
  · intro j hne
    unfold get?
    split
    · rw [Array.getElem?_setIfInBounds_ne (by omega)]
    · rfl

end

/-! ## Numbered steps -/

/-- The script with the places of its steps: the numbers of the old and the new line that come next
at the step. -/
def numbered (x y : Int) : Script α → Script (Int × Int)
  | [] => []
  | .keep _ :: s => .keep (x, y) :: numbered (x + 1) (y + 1) s
  | .delete _ :: s => .delete (x, y) :: numbered (x + 1) y s
  | .insert _ :: s => .insert (x, y) :: numbered x (y + 1) s

theorem numbered_append (x y : Int) (s t : Script α) : numbered x y (s ++ t) =
    numbered x y s ++ numbered (x + (source s).length) (y + (target s).length) t := by
  induction s generalizing x y with
  | nil => simp [numbered]
  | cons e s ih =>
      cases e <;> simp [numbered, ih, Int.add_assoc, Int.add_comm 1]

theorem cost_numbered (x y : Int) (s : Script α) : cost (numbered x y s) = cost s := by
  induction s generalizing x y with
  | nil => rfl
  | cons e s ih => cases e <;> simp [numbered, ih]

theorem range_succ_from (n : Nat) (x : Int) : (List.range (n + 1)).map (fun i : Nat => x + i) =
    x :: (List.range n).map fun i : Nat => x + 1 + i := by
  rw [List.range_succ_eq_map, List.map_cons, List.map_map]
  congr 1
  · simp
  · refine List.map_congr_left fun i _ => ?_
    simp only [Function.comp_apply]
    omega

/-- The old lines are numbered one after the other, each once. -/
theorem numbered_source (x y : Int) (s : Script α) : (source (numbered x y s)).map Prod.fst =
    (List.range (source s).length).map fun i : Nat => x + i := by
  induction s generalizing x y with
  | nil => rfl
  | cons e s ih => cases e <;> simp [numbered, ih, range_succ_from]

/-- The new lines are numbered one after the other, each once. -/
theorem numbered_target (x y : Int) (s : Script α) : (target (numbered x y s)).map Prod.snd =
    (List.range (target s).length).map fun i : Nat => y + i := by
  induction s generalizing x y with
  | nil => rfl
  | cons e s ih => cases e <;> simp [numbered, ih, range_succ_from]

/-- A kept line is the same on both sides. -/
theorem exists_of_keep_mem {x y i j : Int} {s : Script α} (h : .keep (i, j) ∈ numbered x y s) :
    ∃ (a b : Nat) (l : α), i = x + a ∧ j = y + b ∧ (source s)[a]? = some l ∧
      (target s)[b]? = some l := by
  induction s generalizing x y with
  | nil => simp [numbered] at h
  | cons e s ih =>
      cases e with
      | keep l =>
          rcases List.mem_cons.mp h with heq | h
          · obtain ⟨rfl, rfl⟩ : i = x ∧ j = y := by simpa using heq
            exact ⟨0, 0, l, by simp, by simp, rfl, rfl⟩
          · obtain ⟨a, b, l', hi, hj, hold, hnew⟩ := ih h
            exact ⟨a + 1, b + 1, l', by omega, by omega, hold, hnew⟩
      | delete l =>
          rcases List.mem_cons.mp h with heq | h
          · simp at heq
          · obtain ⟨a, b, l', hi, hj, hold, hnew⟩ := ih h
            exact ⟨a + 1, b, l', by omega, hj, hold, hnew⟩
      | insert l =>
          rcases List.mem_cons.mp h with heq | h
          · simp at heq
          · obtain ⟨a, b, l', hi, hj, hold, hnew⟩ := ih h
            exact ⟨a, b + 1, l', hi, by omega, hold, hnew⟩

/-! ## The passes -/

section

variable [BEq α]

/-- Goes along a diagonal as long as the lines are alike. -/
def slide? (a b : Array α) (x y : Int) : Option (Int × Int) :=
  if x < a.size ∧ y < b.size then do
    let l ← get? a x
    let l' ← get? b y
    if l == l' then slide? a b (x + 1) (y + 1) else return (x, y)
  else return (x, y)
termination_by (a.size - x).toNat

/-- Round `d` comes to diagonal `k` by an insertion: at the lower edge, and where the diagonal above
is further than the one below. -/
def inserts? (v : Array Int) (offset d k : Int) : Option Bool :=
  if k = -d then return true
  else if k = d then return false
  else do
    let below ← get? v (offset + k - 1)
    let above ← get? v (offset + k + 1)
    return below < above

/-- Where the slide on diagonal `k` starts. -/
def start? (v : Array Int) (offset d k : Int) : Option Int := do
  if ← inserts? v offset d k then get? v (offset + k + 1)
  else return (← get? v (offset + k - 1)) + 1

/-- Round `d` from diagonal `k` on; the answer tells whether the end of both lists was met. -/
def round? (a b : Array α) (offset d k : Int) (v : Array Int) : Option (Bool × Array Int) :=
  if k ≤ d then do
    let x ← start? v offset d k
    let (x, y) ← slide? a b x (x - k)
    let v ← set? v (offset + k) x
    if a.size ≤ x ∧ b.size ≤ y then return (true, v) else round? a b offset d (k + 2) v
  else return (false, v)
termination_by (d + 1 - k).toNat

/-- Back along a diagonal, as long as both lists go on behind the point `(toX, toY)`. -/
def keepsBack (toX toY x y : Int) (walk : Array (Edit (Int × Int))) :
    Int × Int × Array (Edit (Int × Int)) :=
  if toX < x ∧ toY < y then
    keepsBack toX toY (x - 1) (y - 1) (walk.push (.keep (x - 1, y - 1)))
  else (x, y, walk)
termination_by (x - toX).toNat

/-- The walk from the point `(x, y)` back through the rounds below `n`, the last step first. -/
def backtrack? (trace : Array (Array Int)) (offset : Int) :
    Nat → Int → Int → Array (Edit (Int × Int)) → Option (Array (Edit (Int × Int)))
  | 0, _, _, walk => some walk
  | d + 1, x, y, walk => do
    let v ← get? trace d
    let k := x - y
    let fromK := if ← inserts? v offset d k then k + 1 else k - 1
    let fromX ← get? v (offset + fromK)
    let fromY := fromX - fromK
    let (x, y, walk) := keepsBack fromX fromY x y walk
    let walk :=
      if d = 0 then walk
      else if x = fromX then walk.push (.insert (x, fromY))
      else walk.push (.delete (fromX, y))
    backtrack? trace offset d fromX fromY walk

/-- The rounds from `d` on. -/
def search? (a b : Array α) (bound d : Nat) (v : Array Int) (trace : Array (Array Int)) :
    Option (Array (Edit (Int × Int))) :=
  if d ≤ bound then do
    let trace := trace.push v
    let (found, v) ← round? a b bound d (-d) v
    if found then return (← backtrack? trace bound trace.size a.size b.size #[]).reverse
    else search? a b bound (d + 1) v trace
  else return #[]
termination_by bound + 1 - d

/-- The walk from the start of both lists to their ends, or nothing if some access misses its
array. -/
def walk? (a b : Array α) : Option (Array (Edit (Int × Int))) :=
  let bound := a.size + b.size
  search? a b bound 0 (Array.replicate (2 * bound + 2) 0) #[]

end

/-! ## Slides -/

section

variable [BEq α] [LawfulBEq α] {old new : List α}

/-- A slide passes what both lists have in common, up to lines that differ or the end of a list. -/
theorem slide?_common {x y : Nat} {common o n : List α} (hold : old.drop x = common ++ o)
    (hnew : new.drop y = common ++ n)
    (hstuck : ∀ a o' b n', o = a :: o' → n = b :: n' → a ≠ b) :
    slide? old.toArray new.toArray x y =
      some ((x : Int) + common.length, (y : Int) + common.length) := by
  have hget {ls : List α} {z : Nat} {l : α} {rest : List α} (h : ls.drop z = l :: rest) :
      (z : Int) < ls.toArray.size ∧ get? ls.toArray z = some l := by
    have hlt : z < ls.length := by
      by_contra hle
      simp [List.drop_eq_nil_of_le (Nat.le_of_not_lt hle)] at h
    rw [List.drop_eq_getElem_cons hlt, List.cons.injEq] at h
    refine ⟨by simpa using hlt, ?_⟩
    rw [get?_natCast, List.getElem?_toArray, List.getElem?_eq_getElem hlt, h.1]
  induction common generalizing x y with
  | nil =>
      rw [slide?]
      split
      · rename_i hlt
        obtain ⟨a, o', ho⟩ : ∃ a o', old.drop x = a :: o' :=
          ⟨_, _, List.drop_eq_getElem_cons (by simpa using hlt.1)⟩
        obtain ⟨b, n', hn⟩ : ∃ b n', new.drop y = b :: n' :=
          ⟨_, _, List.drop_eq_getElem_cons (by simpa using hlt.2)⟩
        have hne : (a == b) = false :=
          beq_false_of_ne (hstuck a o' b n' (by simpa [ho] using hold.symm)
            (by simpa [hn] using hnew.symm))
        simp [(hget ho).2, (hget hn).2, hne]
      · simp
  | cons l common ih =>
      obtain ⟨hx, hgetx⟩ := hget hold
      obtain ⟨hy, hgety⟩ := hget hnew
      have hrec := ih (x := x + 1) (y := y + 1)
        (by rw [← List.drop_drop, hold]; rfl) (by rw [← List.drop_drop, hnew]; rfl)
      push_cast at hrec
      rw [slide?, if_pos ⟨hx, hy⟩, hgetx, hgety]
      simp only [Option.bind_eq_bind, Option.bind_some, beq_self_eq_true, if_true, hrec,
        List.length_cons, Option.some.injEq, Prod.mk.injEq]
      omega

/-- The passes slide along a diagonal as far as points do. -/
theorem slide?_eq (x y : Nat) (steps : List (Edit α)) {z : Nat}
    (hz : z = (Reach.slide x (old.drop x) (new.drop y) steps).passed) :
    slide? old.toArray new.toArray x y = some ((z : Int), (z : Int) - x + y) := by
  have hstuck := Reach.slide_stuck x (old.drop x) (new.drop y) steps
  obtain ⟨common, o, n, hold, hnew, hslide⟩ := Reach.exists_slide x (old.drop x) (new.drop y) steps
  rw [hslide] at hstuck hz
  rw [slide?_common hold hnew hstuck]
  simp only [Option.some.injEq, Prod.mk.injEq]
  dsimp only at hz
  omega

/-- The slide after an insertion. -/
theorem slide?_insert {d i : Nat} {r : Reach α} (h : r.Leads old new d i) {k : Int}
    (hk : k = 2 * i - (d + 1)) : slide? old.toArray new.toArray r.passed (r.passed - k) =
      some ((r.insert.passed : Int), r.insert.passed - k) := by
  obtain ⟨passedNew, hold, hnew, hdiagonal, -⟩ := h.place
  obtain ⟨steps, hsteps⟩ : ∃ steps, r.insert.passed =
      (Reach.slide r.passed (old.drop r.passed) (new.drop (passedNew + 1)) steps).passed := by
    unfold Reach.insert
    rw [← List.drop_drop, ← hnew, ← hold]
    split
    case h_1 b rest hrest => exact ⟨.insert b :: r.steps, by rw [hrest]; rfl⟩
    case h_2 hrest => exact ⟨[], by rw [hrest]; simp [Reach.slide]⟩
  have hslide := slide?_eq r.passed (passedNew + 1) steps hsteps
  have hy : (r.passed : Int) - k = (passedNew + 1 : Nat) := by omega
  rw [hy, hslide]
  simp only [Option.some.injEq, Prod.mk.injEq, true_and]
  omega

/-- The slide after a deletion. -/
theorem slide?_delete {d i : Nat} {r : Reach α} (h : r.Leads old new d i) {k : Int}
    (hk : k = 2 * (i + 1) - (d + 1)) :
    slide? old.toArray new.toArray (r.passed + 1) (r.passed + 1 - k) =
      some ((r.delete.passed : Int), r.delete.passed - k) := by
  obtain ⟨passedNew, hold, hnew, hdiagonal, -⟩ := h.place
  obtain ⟨steps, hsteps⟩ : ∃ steps, r.delete.passed =
      (Reach.slide (r.passed + 1) (old.drop (r.passed + 1)) (new.drop passedNew) steps).passed := by
    unfold Reach.delete
    rw [← List.drop_drop, ← hnew, ← hold]
    split
    case h_1 a rest hrest => exact ⟨.delete a :: r.steps, by rw [hrest]; rfl⟩
    case h_2 hrest => exact ⟨[], by rw [hrest]; simp [Reach.slide]⟩
  have hslide := slide?_eq (r.passed + 1) passedNew steps hsteps
  have hy : (r.passed : Int) + 1 - k = passedNew := by omega
  push_cast at hslide
  rw [hy, hslide]
  simp only [Option.some.injEq, Prod.mk.injEq, true_and]
  omega

/-! ## One round -/

/-- What the array holds before round `d`: the points of the round before it, on their diagonals. -/
structure Before (old new : List α) (offset : Int) (d : Nat) (v : Array Int) : Prop where
  start : d = 0 → get? v (offset + 1) = some 0
  points : ∀ (e i : Nat) (r : Reach α), d = e + 1 → (roundAt old new e)[i]? = some r →
    get? v (offset + (2 * i - e)) = some (r.passed : Int)

section

variable {offset : Int} {d j : Nat} {v : Array Int}

/-- A point that comes from an insertion is entered from the diagonal above. -/
theorem Before.inserts?_insert (h : Before old new offset (d + 1) v) {i : Nat} {right : Reach α}
    (hright : (roundAt old new d)[i]? = some right)
    (hleft : ∀ j left, i = j + 1 → (roundAt old new d)[j]? = some left →
      left.passed < right.passed) {k : Int} (hk : k = 2 * i - (d + 1)) :
    inserts? v offset (d + 1) k = some true ∧ get? v (offset + k + 1) = some (right.passed : Int) := by
  have hle := le_of_roundAt hright
  have habove : get? v (offset + k + 1) = some (right.passed : Int) := by
    rw [show offset + k + 1 = offset + (2 * i - d) by omega]
    exact h.points d i right rfl hright
  refine ⟨?_, habove⟩
  cases i with
  | zero => rw [inserts?, if_pos (by omega)]; rfl
  | succ j =>
      obtain ⟨left, hj⟩ := exists_roundAt old new (d := d) (i := j) (by omega)
      have hbelow : get? v (offset + k - 1) = some (left.passed : Int) := by
        rw [show offset + k - 1 = offset + (2 * j - d) by omega]
        exact h.points d j left rfl hj
      have hcompare := hleft j left rfl hj
      rw [inserts?, if_neg (by omega), if_neg (by omega), hbelow, habove]
      simpa using hcompare

/-- A point that comes from a deletion is entered from the diagonal below. -/
theorem Before.inserts?_delete (h : Before old new offset (d + 1) v) {i : Nat} {left : Reach α}
    (hleft : (roundAt old new d)[i]? = some left)
    (hright : ∀ right, (roundAt old new d)[i + 1]? = some right → right.passed ≤ left.passed)
    {k : Int} (hk : k = 2 * (i + 1) - (d + 1)) :
    inserts? v offset (d + 1) k = some false ∧ get? v (offset + k - 1) = some (left.passed : Int) := by
  have hle := le_of_roundAt hleft
  have hbelow : get? v (offset + k - 1) = some (left.passed : Int) := by
    rw [show offset + k - 1 = offset + (2 * i - d) by omega]
    exact h.points d i left rfl hleft
  refine ⟨?_, hbelow⟩
  rw [inserts?, if_neg (by omega)]
  by_cases hlast : i = d
  · rw [if_pos (by omega)]
    rfl
  · obtain ⟨right, hi⟩ := exists_roundAt old new (d := d) (i := i + 1) (by omega)
    have habove : get? v (offset + k + 1) = some (right.passed : Int) := by
      rw [show offset + k + 1 = offset + (2 * (i + 1 : Nat) - d) by omega]
      exact h.points d (i + 1) right rfl hi
    have hcompare := hright right hi
    rw [if_neg (by omega), hbelow, habove]
    simpa using hcompare

/-- A round finds its points. -/
theorem Before.start?_eq (h : Before old new offset d v) {i : Nat} {r : Reach α}
    (hr : (roundAt old new d)[i]? = some r) {k : Int} (hk : k = 2 * i - d) :
    ∃ x, start? v offset d k = some x ∧
      slide? old.toArray new.toArray x (x - k) = some ((r.passed : Int), r.passed - k) := by
  cases d with
  | zero =>
      obtain ⟨rfl, rfl⟩ : i = 0 ∧ Reach.slide 0 old new [] = r := by
        cases i <;> simp_all [roundAt]
      obtain rfl : k = 0 := by omega
      have hslide : slide? old.toArray new.toArray (0 : Nat) (0 : Nat) = _ := slide?_eq 0 0 [] rfl
      refine ⟨0, ?_, by simpa using hslide⟩
      simp [start?, inserts?, h.start rfl]
  | succ d =>
      cases origin_of_nextRound hr with
      | @insert _ right hright hleft =>
          obtain ⟨hinserts, hget⟩ := h.inserts?_insert hright hleft (k := k) (by omega)
          refine ⟨right.passed, ?_, ?_⟩
          · rw [start?, Int.natCast_succ, hinserts]
            exact hget
          · exact slide?_insert (leads_roundAt hright) (by omega)
      | @delete i left hleft hright =>
          obtain ⟨hinserts, hget⟩ := h.inserts?_delete hleft hright (k := k) (by omega)
          refine ⟨left.passed + 1, ?_, ?_⟩
          · rw [start?, Int.natCast_succ, hinserts]
            simp [hget]
          · exact slide?_delete (leads_roundAt hleft) (by omega)

/-- The array while round `d` goes on: the points below diagonal `j` are there, and those of the round
before it still stand in between. -/
structure During (old new : List α) (offset : Int) (d j : Nat) (v : Array Int) : Prop where
  before : Before old new offset d v
  points : ∀ (i : Nat) (r : Reach α), i < j → (roundAt old new d)[i]? = some r →
    get? v (offset + (2 * i - d)) = some (r.passed : Int)

/-- A write on a diagonal of the round leaves those of the round before it alone. -/
theorem During.set (h : During old new offset d j v) {r : Reach α}
    (hr : (roundAt old new d)[j]? = some r) {w : Array Int}
    (hsame : get? w (offset + (2 * j - d)) = some (r.passed : Int))
    (hother : ∀ i, i ≠ offset + (2 * j - d) → get? w i = get? v i) :
    During old new offset d (j + 1) w := by
  have hle := le_of_roundAt hr
  refine ⟨⟨?_, ?_⟩, ?_⟩
  · rintro rfl
    rw [hother _ (by omega)]
    exact h.before.start rfl
  · rintro e i q rfl hq
    rw [hother _ (by omega)]
    exact h.before.points e i q rfl hq
  · intro i q hi hq
    by_cases heq : i = j
    · subst heq
      obtain rfl : r = q := Option.some.inj (hr.symm.trans hq)
      exact hsame
    · rw [hother _ (by omega)]
      exact h.points i q (by omega) hq

theorem During.before_next (h : During old new offset d (d + 1) v) :
    Before old new offset (d + 1) v := by
  refine ⟨by simp, ?_⟩
  intro e i r he hr
  obtain rfl : e = d := by omega
  exact h.points i r (Nat.lt_succ_of_le (le_of_roundAt hr)) hr

omit [BEq α] [LawfulBEq α] in
theorem isDone_iff {i : Nat} {r : Reach α} (h : r.Leads old new d i) {k : Int}
    (hk : k = 2 * i - d) : r.isDone = true ↔
      (old.toArray.size : Int) ≤ r.passed ∧ (new.toArray.size : Int) ≤ r.passed - k := by
  obtain ⟨passedNew, hold, hnew, hdiagonal, -⟩ := h.place
  rw [Reach.isDone, hold, hnew, Bool.and_eq_true, List.isEmpty_iff, List.isEmpty_iff,
    List.drop_eq_nil_iff, List.drop_eq_nil_iff, List.size_toArray, List.size_toArray]
  omega

/-- Round `d` reads and writes inside its array. It stops at the first point that is done, and else
leaves the points of the round behind. -/
theorem round?_eq {bound : Nat} (hbound : bound = old.length + new.length) (hd : d ≤ bound)
    (hsize : v.size = 2 * bound + 2) {j : Nat} (hj : j ≤ d + 1) (h : During old new bound d j v)
    (hnone : ∀ i r, i < j → (roundAt old new d)[i]? = some r → r.isDone = false) {k : Int}
    (hk : k = 2 * j - d) :
    ∃ found w, round? old.toArray new.toArray bound d k v = some (found, w) ∧
      w.size = 2 * bound + 2 ∧
      (found = true ∧ (∃ r ∈ roundAt old new d, r.isDone = true) ∨
        found = false ∧ (∀ r ∈ roundAt old new d, r.isDone = false) ∧
          Before old new bound (d + 1) w) := by
  induction hrest : d + 1 - j generalizing j v k with
  | zero =>
      obtain rfl : j = d + 1 := by omega
      refine ⟨false, v, ?_, hsize, .inr ⟨rfl, ?_, h.before_next⟩⟩
      · rw [round?, if_neg (by omega)]
        rfl
      · intro r hr
        obtain ⟨i, hi⟩ := List.mem_iff_getElem?.mp hr
        exact hnone i r (Nat.lt_succ_of_le (le_of_roundAt hi)) hi
  | succ n ih =>
      obtain ⟨r, hr⟩ := exists_roundAt old new (d := d) (i := j) (by omega)
      obtain ⟨x, hstart, hslide⟩ := h.before.start?_eq hr hk
      obtain ⟨w, hset, hw, hsame, hother⟩ := exists_set? (a := v) (i := bound + k) (by omega)
        (by omega) (r.passed : Int)
      rw [hk] at hsame hother
      have hdone := isDone_iff (leads_roundAt hr) hk
      rw [round?, if_pos (by omega), hstart]
      simp only [Option.bind_eq_bind, Option.bind_some, hslide, hset, ← hdone]
      cases hcase : r.isDone with
      | true =>
          exact ⟨true, w, rfl, hw.trans hsize,
            .inl ⟨rfl, r, List.mem_iff_getElem?.mpr ⟨j, hr⟩, hcase⟩⟩
      | false =>
          rw [if_neg Bool.false_ne_true]
          refine ih (hw.trans hsize) (by omega) (h.set hr hsame hother) ?_ (by omega) (by omega)
          intro i q hi hq
          by_cases heq : i = j
          · subst heq
            obtain rfl : r = q := Option.some.inj (hr.symm.trans hq)
            exact hcase
          · exact hnone i q (by omega) hq

end

/-! ## The walk back -/

theorem reverse_push {β : Type} (a : Array β) (x : β) :
    (a.push x).reverse.toList = x :: a.reverse.toList := by simp

omit [BEq α] [LawfulBEq α] in
/-- Walking back over the lines that were kept behind the point `(x, y)` numbers them. -/
theorem keepsBack_eq (toX toY x y : Int) (hx : toX ≤ x) (hy : toY ≤ y)
    (hedge : x = toX ∨ y = toY) (kept : List α) (walk : Array (Edit (Int × Int))) :
    ∃ walk', keepsBack toX toY (x + kept.length) (y + kept.length) walk = (x, y, walk') ∧
      walk'.reverse.toList = numbered x y (kept.map Edit.keep) ++ walk.reverse.toList := by
  induction kept using List.reverseRecOn generalizing walk with
  | nil =>
      refine ⟨walk, ?_, rfl⟩
      rw [keepsBack, if_neg (by simp; omega)]
      simp
  | append_singleton kept l ih =>
      obtain ⟨walk', hback, hwalk⟩ :=
        ih (walk.push (.keep (x + kept.length, y + kept.length)))
      refine ⟨walk', ?_, ?_⟩
      · rw [List.length_append, List.length_singleton, keepsBack, if_pos (by omega), ← hback]
        push_cast
        simp only [← Int.add_assoc, Int.add_sub_cancel]
      · rw [hwalk, List.map_append, numbered_append]
        simp [numbered]

omit [BEq α] [LawfulBEq α] in
/-- Inside the grid the script of a point passes as many lines as the point. -/
theorem numbered_steps_append {d i : Nat} {r : Reach α} (h : r.Leads old new d i)
    (hx : r.passed ≤ old.length) {y : Nat} (hdiagonal : r.passed + d = y + 2 * i)
    (hy : y ≤ new.length) (s : Script α) : numbered 0 0 (r.steps.reverse ++ s) =
      numbered 0 0 r.steps.reverse ++ numbered r.passed y s := by
  obtain ⟨passedNew, hold, hnew, hplace, -⟩ := h.place
  obtain rfl : passedNew = y := by omega
  have hsource := congrArg List.length h.source
  have htarget := congrArg List.length h.target
  rw [hold, List.length_append, List.length_drop] at hsource
  rw [hnew, List.length_append, List.length_drop] at htarget
  rw [numbered_append, Int.zero_add, Int.zero_add]
  congr 2 <;> omega

theorem steps_slide (x : Nat) (o n : List α) (steps : List (Edit α)) :
    ∃ kept : List α, (Reach.slide x o n steps).steps.reverse =
        steps.reverse ++ kept.map Edit.keep ∧
      (Reach.slide x o n steps).passed = x + kept.length := by
  obtain ⟨kept, _, _, _, _, hslide⟩ := Reach.exists_slide x o n steps
  exact ⟨kept, by simp [hslide], by simp [hslide]⟩

/-- The steps to a point inside the grid that comes from an insertion. -/
theorem steps_insert {d i : Nat} {r : Reach α} (h : r.Leads old new d i) {y : Nat}
    (hdiagonal : r.insert.passed + (d + 1) = y + 2 * i) (hy : y ≤ new.length) :
    ∃ (b : α) (kept : List α), r.insert.steps.reverse =
        r.steps.reverse ++ .insert b :: kept.map Edit.keep ∧
      r.insert.passed = r.passed + kept.length := by
  obtain ⟨passedNew, hold, hnew, hplace, -⟩ := h.place
  have hle := r.le_insert_passed
  cases hrest : r.newRest with
  | nil =>
      rw [hrest, eq_comm, List.drop_eq_nil_iff] at hnew
      omega
  | cons b rest =>
      obtain ⟨kept, hsteps, hpassed⟩ :=
        steps_slide r.passed r.oldRest rest (.insert b :: r.steps)
      refine ⟨b, kept, ?_, ?_⟩
      · simp [Reach.insert, hrest, hsteps]
      · simp [Reach.insert, hrest, hpassed]

/-- The steps to a point inside the grid that comes from a deletion. -/
theorem steps_delete {d i : Nat} {r : Reach α} (h : r.Leads old new d i)
    (hx : r.delete.passed ≤ old.length) :
    ∃ (a : α) (kept : List α), r.delete.steps.reverse =
        r.steps.reverse ++ .delete a :: kept.map Edit.keep ∧
      r.delete.passed = r.passed + 1 + kept.length := by
  obtain ⟨passedNew, hold, hnew, hplace, -⟩ := h.place
  have hlt := r.lt_delete_passed
  cases hrest : r.oldRest with
  | nil =>
      rw [hrest, eq_comm, List.drop_eq_nil_iff] at hold
      omega
  | cons a rest =>
      obtain ⟨kept, hsteps, hpassed⟩ :=
        steps_slide (r.passed + 1) rest r.newRest (.delete a :: r.steps)
      refine ⟨a, kept, ?_, ?_⟩
      · simp [Reach.delete, hrest, hsteps]
      · simp [Reach.delete, hrest, hpassed]

/-- From a point inside the grid the walk goes back over the steps that lead to the point, and each
round reads inside its array. -/
theorem backtrack?_eq {trace : Array (Array Int)} {offset : Int} {d i : Nat} {r : Reach α}
    (htrace : ∀ e : Nat, e ≤ d → ∃ v, get? trace e = some v ∧ Before old new offset e v)
    (hr : (roundAt old new d)[i]? = some r) (hx : r.passed ≤ old.length) {y : Nat}
    (hdiagonal : r.passed + d = y + 2 * i) (hy : y ≤ new.length)
    (walk : Array (Edit (Int × Int))) :
    ∃ walk', backtrack? trace offset (d + 1) r.passed y walk = some walk' ∧
      walk'.reverse.toList = numbered 0 0 r.steps.reverse ++ walk.reverse.toList := by
  induction d generalizing i r y walk with
  | zero =>
      obtain ⟨v, hv, hbefore⟩ := htrace 0 (Nat.le_refl 0)
      obtain ⟨rfl, rfl⟩ : i = 0 ∧ Reach.slide 0 old new [] = r := by
        cases i <;> simp_all [roundAt]
      obtain ⟨kept, hsteps, hpassed⟩ := steps_slide 0 old new []
      obtain ⟨walk', hback, hwalk⟩ :=
        keepsBack_eq 0 (-1) 0 0 (by decide) (by decide) (.inl rfl) kept walk
      obtain rfl : y = kept.length := by omega
      have hinserts : inserts? v offset 0 0 = some true := rfl
      refine ⟨walk', ?_, by simpa [hsteps] using hwalk⟩
      rw [backtrack?, hv]
      simp only [Option.bind_eq_bind, Option.bind_some, hpassed, Nat.zero_add, Int.sub_self,
        Int.natCast_zero, hinserts, if_true, Int.zero_add, hbefore.start rfl]
      rw [Int.zero_add] at hback
      simp only [Int.zero_sub, hback, backtrack?]
  | succ d ih =>
      obtain ⟨v, hv, hbefore⟩ := htrace (d + 1) (Nat.le_refl _)
      have hearlier (e : Nat) (he : e ≤ d) := htrace e (Nat.le_succ_of_le he)
      cases origin_of_nextRound hr with
      | @insert _ right hright hleft =>
          have hleads := leads_roundAt hright
          obtain ⟨fromY, -, -, hplace, -⟩ := hleads.place
          obtain ⟨b, kept, hsteps, hpassed⟩ := steps_insert hleads hdiagonal hy
          obtain ⟨hinserts, hget⟩ :=
            hbefore.inserts?_insert hright hleft (k := 2 * i - (d + 1)) rfl
          obtain ⟨back, hback, hwalk⟩ := keepsBack_eq right.passed fromY right.passed (fromY + 1)
            (Int.le_refl _) (by omega) (.inl rfl) kept walk
          obtain ⟨walk', hrest, hwalk'⟩ := ih hearlier hright (by omega) hplace (by omega)
            (back.push (.insert (right.passed, fromY)))
          refine ⟨walk', ?_, ?_⟩
          · have hk : ((right.insert.passed : Nat) : Int) - y = 2 * i - (d + 1) := by omega
            have hx' : ((right.insert.passed : Nat) : Int) = right.passed + kept.length := by omega
            have hy' : (y : Int) = fromY + 1 + kept.length := by omega
            have hfromY : (right.passed : Int) - (2 * i - (d + 1) + 1) = fromY := by omega
            have hget' : get? v (offset + (2 * i - (d + 1) + 1)) = some (right.passed : Int) := by
              rw [← Int.add_assoc]
              exact hget
            rw [backtrack?, hv]
            simp only [Option.bind_eq_bind, Option.bind_some, hk, Int.natCast_succ, hinserts,
              if_true, hget', Nat.succ_ne_zero, if_false, hfromY]
            rw [hx', hy', hback]
            simpa using hrest
          · rw [hwalk', reverse_push, hwalk, hsteps,
              numbered_steps_append hleads (by omega) hplace (by omega), numbered,
              List.append_assoc, List.cons_append]
      | @delete i left hleft hright =>
          have hleads := leads_roundAt hleft
          obtain ⟨fromY, -, -, hplace, -⟩ := hleads.place
          obtain ⟨a, kept, hsteps, hpassed⟩ := steps_delete hleads hx
          obtain ⟨hinserts, hget⟩ :=
            hbefore.inserts?_delete hleft hright (k := 2 * (i + 1) - (d + 1)) rfl
          obtain ⟨back, hback, hwalk⟩ := keepsBack_eq left.passed fromY (left.passed + 1) fromY
            (by omega) (Int.le_refl _) (.inr rfl) kept walk
          obtain ⟨walk', hrest, hwalk'⟩ := ih hearlier hleft (by omega) hplace (by omega)
            (back.push (.delete (left.passed, fromY)))
          refine ⟨walk', ?_, ?_⟩
          · have hk : ((left.delete.passed : Nat) : Int) - y = 2 * (i + 1) - (d + 1) := by omega
            have hx' : ((left.delete.passed : Nat) : Int) = left.passed + 1 + kept.length := by omega
            have hy' : (y : Int) = fromY + kept.length := by omega
            have hfromY : (left.passed : Int) - (2 * (i + 1) - (d + 1) - 1) = fromY := by omega
            have hget' : get? v (offset + (2 * (i + 1) - (d + 1) - 1)) = some (left.passed : Int) := by
              rw [← Int.add_sub_assoc]
              exact hget
            have hne : ¬ (left.passed : Int) + 1 = left.passed := by omega
            rw [backtrack?, hv]
            simp only [Option.bind_eq_bind, Option.bind_some, hk, Int.natCast_succ, hinserts,
              Bool.false_eq_true, if_false, hget', Nat.succ_ne_zero, hfromY]
            rw [hx', hy', hback]
            simpa [hne] using hrest
          · rw [hwalk', reverse_push, hwalk, hsteps,
              numbered_steps_append hleads (by omega) hplace (by omega), numbered,
              List.append_assoc, List.cons_append]

/-! ## Both passes -/

/-- The trace has the arrays as they were before each of the first `d` rounds. -/
def Traced (old new : List α) (offset : Int) (d : Nat) (trace : Array (Array Int)) : Prop :=
  trace.size = d ∧ ∀ e : Nat, e < d → ∃ v, get? trace e = some v ∧ Before old new offset e v

omit [LawfulBEq α] in
theorem Traced.push {offset : Int} {d : Nat} {trace : Array (Array Int)} {v : Array Int}
    (h : Traced old new offset d trace) (hv : Before old new offset d v) :
    Traced old new offset (d + 1) (trace.push v) := by
  obtain ⟨hsize, hbefore⟩ := h
  refine ⟨by simp [hsize], ?_⟩
  intro e he
  rcases Nat.lt_or_eq_of_le (Nat.le_of_lt_succ he) with hlt | rfl
  · obtain ⟨u, hu, hbefore⟩ := hbefore e hlt
    refine ⟨u, ?_, hbefore⟩
    rw [get?_natCast] at hu ⊢
    rw [Array.getElem?_push_lt (by omega)]
    simpa [Array.getElem?_eq_getElem (hsize ▸ hlt)] using hu
  · refine ⟨v, ?_, hv⟩
    rw [get?_natCast, ← hsize, Array.getElem?_push_size]

/-- The passes find the script of the point that ends the search. -/
theorem search?_eq {bound n i : Nat} {r : Reach α} (hbound : bound = old.length + new.length)
    (hfound : Found old new n i r) (hn : n ≤ bound) {d : Nat} (hd : d ≤ n) {v : Array Int}
    (hv : Before old new bound d v) (hsize : v.size = 2 * bound + 2) {trace : Array (Array Int)}
    (htrace : Traced old new bound d trace) :
    ∃ walk, search? old.toArray new.toArray bound d v trace = some walk ∧
      walk.toList = numbered 0 0 r.steps.reverse := by
  induction hrest : n - d generalizing d v trace with
  | zero =>
      obtain rfl : d = n := by omega
      obtain ⟨-, hpassed, hdiagonal⟩ := hfound.cost_eq
      obtain ⟨found, w, hround, -, hcase⟩ := round?_eq hbound hn hsize (Nat.zero_le (d + 1))
        ⟨hv, by simp⟩ (by simp) (k := -d) (by omega)
      obtain rfl : found = true := by
        rcases hcase with ⟨htrue, -⟩ | ⟨-, hnone, -⟩
        · exact htrue
        · have hdone := hnone r (List.mem_iff_getElem?.mpr ⟨i, hfound.point⟩)
          exact absurd hfound.done (by simp [hdone])
      obtain ⟨hlength, hbefore⟩ := htrace.push hv
      obtain ⟨walk, hwalk, hsteps⟩ := backtrack?_eq
        (fun e he => hbefore e (Nat.lt_succ_of_le he)) hfound.point (Nat.le_of_eq hpassed)
        (hpassed ▸ hdiagonal) (Nat.le_refl _) #[]
      refine ⟨walk.reverse, ?_, by simpa using hsteps⟩
      rw [hpassed] at hwalk
      rw [search?, if_pos hn]
      simp only [Option.bind_eq_bind, hround, Option.bind_some, if_true, hlength,
        List.size_toArray, hwalk]
      rfl
  | succ k ih =>
      obtain ⟨found, w, hround, hw, hcase⟩ := round?_eq hbound (Nat.le_trans hd hn) hsize
        (Nat.zero_le (d + 1)) ⟨hv, by simp⟩ (by simp) (k := -d) (by omega)
      obtain ⟨rfl, hnext⟩ : found = false ∧ Before old new bound (d + 1) w := by
        rcases hcase with ⟨-, q, hq, hdone⟩ | ⟨hfalse, -, hnext⟩
        · exact absurd (hfound.first d (by omega) q hq) (by simp [hdone])
        · exact ⟨hfalse, hnext⟩
      obtain ⟨walk, hwalk, hsteps⟩ := ih (by omega) hnext hw (htrace.push hv) (by omega)
      refine ⟨walk, ?_, hsteps⟩
      rw [search?, if_pos (Nat.le_trans hd hn)]
      simp only [Option.bind_eq_bind, hround, Option.bind_some, Bool.false_eq_true, if_false]
      exact hwalk

/-- Both passes stay inside their arrays and find the script of the search by points. -/
theorem walk?_eq (old new : List α) : ∃ walk, walk? old.toArray new.toArray = some walk ∧
    walk.toList = numbered 0 0 (shortest old new) := by
  obtain ⟨n, i, r, hfound, hn, hshortest⟩ := exists_found old new
  let zeros : Array Int := Array.replicate (2 * (old.length + new.length) + 2) 0
  have hzeros : Before old new (old.length + new.length : Nat) 0 zeros := by
    refine ⟨fun _ => ?_, by simp⟩
    rw [← Int.natCast_succ, get?_natCast]
    simp [zeros, Array.getElem?_replicate]
    omega
  rw [hshortest]
  exact search?_eq rfl hfound hn (Nat.zero_le n) hzeros (by simp [zeros]) ⟨rfl, by simp⟩

end

/-- A walk through all old and all new lines with the fewest changes: it passes the old lines in
order, each once, by keeping or deleting it, and the new lines by keeping or inserting them; it
keeps only lines that are alike, and changes what a longest common sublist leaves over. -/
structure ShortestWalk (old new : List α) (walk : Script (Int × Int)) : Prop where
  old_lines : walk.source.map Prod.fst = (List.range old.length).map Int.ofNat
  new_lines : walk.target.map Prod.snd = (List.range new.length).map Int.ofNat
  kept_alike : ∀ i j, .keep (i, j) ∈ walk →
    ∃ (a b : Nat) (l : α), i = a ∧ j = b ∧ old[a]? = some l ∧ new[b]? = some l
  minimal : ∃ common, LongestCommon old new common ∧
    walk.cost + 2 * common.length = old.length + new.length

/-- For all lists of lines the passes over arrays stay inside them and give a shortest walk. -/
theorem walk_is_shortest (old new : List Bytes) :
    ∃ walk, walk? old.toArray new.toArray = some walk ∧ ShortestWalk old new walk.toList ∧
      walk.toList = numbered 0 0 (shortest old new) := by
  obtain ⟨walk, hwalk, hsteps⟩ := walk?_eq old new
  refine ⟨walk, hwalk, ?_, hsteps⟩
  obtain ⟨hlongest, hcost⟩ := longestCommon_shortest old new
  rw [hsteps]
  refine ⟨?_, ?_, ?_, kept (shortest old new), hlongest, ?_⟩
  · rw [numbered_source, source_shortest]
    simp
  · rw [numbered_target, target_shortest]
    simp
  · intro i j hmem
    obtain ⟨a, b, l, hi, hj, hold, hnew⟩ := exists_of_keep_mem hmem
    rw [source_shortest] at hold
    rw [target_shortest] at hnew
    exact ⟨a, b, l, by omega, by omega, hold, hnew⟩
  · rw [cost_numbered]
    exact hcost

end VhdlStyle.Patch
