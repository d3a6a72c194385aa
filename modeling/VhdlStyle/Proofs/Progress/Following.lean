import Mathlib.Data.List.Induction
import Mathlib.Data.List.Nodup
import Mathlib.Data.List.Range
import VhdlStyle.Progress

/-! # The progress view follows a run

Each file of a run finishes at most once. Then every file has the status of its event, the tally
counts the files of each status, and the view lists the failed files and those finished last. What
carries this are the events so far and the places in the order in which the files at them have
finished. -/

namespace VhdlStyle

/-! ## Statuses and counts -/

/-- The status of a file that has come to an end. -/
def FileStatus.isFinal : FileStatus → Bool
  | .changed | .unchanged | .cached | .failed => true
  | .queued | .other _ => false

theorem FileStatus.ne_queued {s : FileStatus} (h : s.isFinal = true) : s ≠ .queued := by
  rintro rfl
  exact Bool.false_ne_true h

/-- The count of a status; those that are not counted have none. -/
def Tally.count (t : Tally) : FileStatus → Int
  | .queued => t.queued
  | .changed => t.changed
  | .unchanged => t.unchanged
  | .cached => t.cached
  | .failed => t.failed
  | .other _ => 0

/-- The sum of all counts. -/
def Tally.total (t : Tally) : Int := t.queued + t.changed + t.unchanged + t.cached + t.failed

/-- Adding changes one count. -/
theorem Tally.exists_add? (t : Tally) (d : Int) {s : FileStatus}
    (h : s = .queued ∨ s.isFinal = true) :
    ∃ t', t.add? d s = some t' ∧ ∀ s', t'.count s' = t.count s' + if s' = s then d else 0 := by
  cases s with
  | other n => simp [FileStatus.isFinal] at h
  | _ =>
      refine ⟨_, rfl, fun s' => ?_⟩
      cases s' <;> simp [count]

namespace Progress

/-- The view after some files have reached a status each. -/
def follow (p : Progress) (events : List (Bytes × FileStatus)) : Progress :=
  events.foldl (fun p e => (p.apply e.1 e.2).1) p

/-- The number of files of a status. -/
def tallied (items : List ProgressItem) (s : FileStatus) : Nat :=
  items.countP (·.status = s)

/-- The status of a file after some events: that of its event, and it is queued if it has none. -/
def reached (events : List (Bytes × FileStatus)) (path : Bytes) : FileStatus :=
  ((events.find? (·.1 == path)).map Prod.snd).getD .queued

/-- The files with the statuses they have reached after some events. -/
def itemsAfter (files : List Bytes) (events : List (Bytes × FileStatus)) : List ProgressItem :=
  files.map fun path => { path, status := reached events path }

/-- The places of the files in the order in which they have finished. -/
def finishedPlaces (files : List Bytes) (events : List (Bytes × FileStatus)) : List Nat :=
  events.filterMap fun e => files.idxOf? e.1

/-- The file at a place has failed. -/
def failedAt (p : Progress) (place : Nat) : Bool := p.items[place]?.any (·.status == .failed)

/-- The file at a place has finished. -/
def finishedAt (p : Progress) (place : Nat) : Bool := p.items[place]?.any (·.status != .queued)

/-- The state of the view after some events, the last one last. -/
structure Follows (files : List Bytes) (events : List (Bytes × FileStatus)) (p : Progress) :
    Prop where
  items : p.items = itemsAfter files events
  status : ∀ item ∈ p.items, item.status = .queued ∨ item.status.isFinal = true
  tally : ∀ s, p.tally.count s = tallied p.items s
  recent : p.recent = keepRecent (finishedPlaces files events)
  places_nodup : (finishedPlaces files events).Nodup
  mem_places : ∀ i, i ∈ finishedPlaces files events ↔ p.finishedAt i = true
  length_places : (finishedPlaces files events).length + tallied p.items .queued = files.length

variable {files : List Bytes} {events : List (Bytes × FileStatus)} {p : Progress} {path : Bytes}
  {status : FileStatus}

theorem Follows.paths (h : Follows files events p) : p.items.map ProgressItem.path = files := by
  rw [h.items, itemsAfter, List.map_map]
  exact List.map_id files

/-! ## Statuses -/

/-- A file that has no event yet gets its status from the next one. -/
theorem reached_append_self (hnew : ∀ e ∈ events, e.1 ≠ path) (status : FileStatus) :
    reached (events ++ [(path, status)]) path = status := by
  have hnone : events.find? (·.1 == path) = none :=
    List.find?_eq_none.mpr fun e he => by simpa using hnew e he
  simp [reached, List.find?_append, hnone]

/-- The event of another file changes nothing. -/
theorem reached_append_of_ne {path' : Bytes} (h : path ≠ path') (status : FileStatus) :
    reached (events ++ [(path, status)]) path' = reached events path' := by
  have hother : [(path, status)].find? (·.1 == path') = none := by simp [h]
  rw [reached, List.find?_append, hother, Option.or_none, reached]

/-- After the first event of a file, the items of all the others are as they were. -/
theorem itemsAfter_append {front back : List ProgressItem} {item : ProgressItem}
    (hfiles : files.Nodup) (hitems : itemsAfter files events = front ++ item :: back)
    (hnew : ∀ e ∈ events, e.1 ≠ item.path) (status : FileStatus) :
    itemsAfter files (events ++ [(item.path, status)]) =
      front ++ { item with status } :: back := by
  obtain ⟨before, after, rfl, rfl, hafter⟩ := List.map_eq_append_iff.mp hitems
  obtain ⟨path, rest, rfl, rfl, rfl⟩ := List.map_eq_cons_iff.mp hafter
  rw [List.nodup_middle, List.nodup_cons, List.mem_append, not_or] at hfiles
  rw [itemsAfter, List.map_append, List.map_cons, reached_append_self hnew]
  congr 1
  · refine List.map_congr_left fun other hother => ?_
    have hne : path ≠ other := fun h => hfiles.1.1 (h ▸ hother)
    rw [reached_append_of_ne hne]
  · congr 1
    refine List.map_congr_left fun other hother => ?_
    have hne : path ≠ other := fun h => hfiles.1.2 (h ▸ hother)
    rw [reached_append_of_ne hne]

/-! ## Places -/

theorem findIdx?_middle {α : Type} {q : α → Bool} {front back : List α} {a : α}
    (hfront : ∀ x ∈ front, q x = false) (ha : q a = true) :
    (front ++ a :: back).findIdx? q = some front.length := by
  rw [List.findIdx?_append, List.findIdx?_eq_none_iff.mpr hfront, List.findIdx?_cons, if_pos ha]
  simp

/-- Files that are not followed have no place. -/
theorem indexOf?_of_not_mem (hpaths : p.items.map ProgressItem.path = files) (hpath : path ∉ files) :
    p.indexOf? path = none ∧ files.idxOf? path = none := by
  constructor
  · rw [indexOf?, Option.map_eq_none_iff, List.findIdx?_eq_none_iff]
    intro item hitem
    refine beq_false_of_ne ?_
    rintro rfl
    exact hpath (hpaths ▸ List.mem_map_of_mem (List.mem_reverse.mp hitem))
  · exact List.idxOf?_eq_none_iff.mpr hpath

/-- A file that is followed has the place of its item. -/
theorem exists_place (hpaths : p.items.map ProgressItem.path = files) (hfiles : files.Nodup)
    (hpath : path ∈ files) : ∃ front item back, p.items = front ++ item :: back ∧
      item.path = path ∧ p.indexOf? path = some front.length ∧
      files.idxOf? path = some front.length := by
  subst hpaths
  obtain ⟨item, hitem, rfl⟩ := List.mem_map.mp hpath
  obtain ⟨front, back, hitems⟩ := List.append_of_mem hitem
  rw [hitems, List.map_append, List.map_cons, List.nodup_middle, List.nodup_cons,
    ← List.map_append, List.mem_map] at hfiles
  have hfront : ∀ it ∈ front, (it.path == item.path) = false := fun it hit =>
    beq_false_of_ne fun hsame => hfiles.1 ⟨it, List.mem_append_left _ hit, hsame⟩
  have hback : ∀ it ∈ back.reverse, (it.path == item.path) = false := fun it hit =>
    beq_false_of_ne fun hsame =>
      hfiles.1 ⟨it, List.mem_append_right _ (List.mem_reverse.mp hit), hsame⟩
  refine ⟨front, item, back, hitems, rfl, ?_, ?_⟩
  · have hreverse : p.items.reverse = back.reverse ++ item :: front.reverse := by simp [hitems]
    rw [indexOf?, hreverse, findIdx?_middle hback (beq_self_eq_true _), hitems, Option.map_some,
      List.length_reverse, List.length_append, List.length_cons]
    congr 1
    omega
  · have hmiddle : (front.map ProgressItem.path ++ item.path :: back.map ProgressItem.path).findIdx?
        (· == item.path) = some (front.map ProgressItem.path).length :=
      findIdx?_middle (List.forall_mem_map.mpr hfront) (beq_self_eq_true _)
    rw [hitems, List.map_append, List.map_cons, List.idxOf?, hmiddle, List.length_map]

/-! ## One event -/

theorem keepRecent_append (places : List Nat) (i : Nat) :
    keepRecent (keepRecent places ++ [i]) = keepRecent (places ++ [i]) := by
  have hcut : keepRecent places ++ [i] = (places ++ [i]).drop (places.length - maxVisible) := by
    rw [keepRecent, List.drop_append_of_le_length (Nat.sub_le _ _)]
  rw [hcut, keepRecent, keepRecent, List.drop_drop, List.length_drop, List.length_append,
    List.length_singleton]
  congr 1
  unfold maxVisible
  omega

theorem tallied_middle (front back : List ProgressItem) (item : ProgressItem) (s : FileStatus) :
    tallied (front ++ item :: back) s =
      tallied front s + tallied back s + if item.status = s then 1 else 0 := by
  simp only [tallied, List.countP_append, List.countP_cons, decide_eq_true_eq]
  omega

/-- The event of a queued file is carried out in full. -/
theorem apply_eq {front back : List ProgressItem} {item : ProgressItem}
    (hitems : p.items = front ++ item :: back) (hindex : p.indexOf? path = some front.length)
    (hqueued : item.status = .queued) (hfinal : status.isFinal = true) :
    ∃ tally, p.apply path status =
        ({ p with
          items := front ++ { item with status } :: back, tally
          recent := keepRecent (p.recent ++ [front.length]) }, true) ∧
      ∀ s, tally.count s = p.tally.count s + (if s = .queued then -1 else 0) +
        if s = status then 1 else 0 := by
  obtain ⟨less, hless, hlessCount⟩ := p.tally.exists_add? (-1) (.inl hqueued)
  obtain ⟨more, hmore, hmoreCount⟩ := less.exists_add? 1 (.inr hfinal)
  have hitem : p.items[front.length]? = some item := by simp [hitems]
  have hset : p.items.set front.length { item with status } =
      front ++ { item with status } :: back := by simp [hitems]
  have hnew : (status == .queued) = false := beq_false_of_ne (FileStatus.ne_queued hfinal)
  refine ⟨more, ?_, fun s => ?_⟩
  · rw [apply]
    simp only [hindex, hitem, hless, hmore, hset, hnew, Bool.false_eq_true, if_false]
  · rw [hmoreCount, hlessCount, hqueued]

theorem finishedAt_middle {front back : List ProgressItem} {item : ProgressItem}
    (hitems : p.items = front ++ item :: back) (status : FileStatus) (i : Nat) :
    finishedAt { p with items := front ++ { item with status } :: back } i =
      if i = front.length then status != .queued else p.finishedAt i := by
  have hset : front ++ { item with status } :: back =
      p.items.set front.length { item with status } := by simp [hitems]
  rw [finishedAt, hset, List.getElem?_set]
  split
  case isTrue hsame =>
    have hlt : front.length < p.items.length := by simp [hitems]
    rw [if_pos hsame.symm, if_pos hlt]
    rfl
  case isFalse hother => rw [if_neg (Ne.symm hother), finishedAt]

theorem path_eq_of_idxOf? {path' : Bytes} {i : Nat} (h : files.idxOf? path = some i)
    (h' : files.idxOf? path' = some i) : path = path' := by
  obtain ⟨_, hpath, -⟩ := List.findIdx?_eq_some_iff_getElem.mp h
  obtain ⟨_, hpath', -⟩ := List.findIdx?_eq_some_iff_getElem.mp h'
  exact (beq_iff_eq.mp hpath).symm.trans (beq_iff_eq.mp hpath')

theorem finishedPlaces_append (files : List Bytes) (events : List (Bytes × FileStatus))
    (e : Bytes × FileStatus) :
    finishedPlaces files (events ++ [e]) =
      finishedPlaces files events ++ (files.idxOf? e.1).toList := by
  rw [finishedPlaces, List.filterMap_append, ← finishedPlaces]
  cases hplace : files.idxOf? e.1 <;> simp [hplace]

/-- A file that has no event yet finishes. -/
theorem Follows.finish (h : Follows files events p) (hfiles : files.Nodup) (hpath : path ∈ files)
    (hnew : ∀ e ∈ events, e.1 ≠ path) (hfinal : status.isFinal = true) :
    Follows files (events ++ [(path, status)]) (p.apply path status).1 := by
  obtain ⟨front, item, back, hitems, rfl, hindex, hplace⟩ := exists_place h.paths hfiles hpath
  have hfresh : front.length ∉ finishedPlaces files events := by
    intro hmem
    obtain ⟨e, he, hsame⟩ := List.mem_filterMap.mp hmem
    exact hnew e he (path_eq_of_idxOf? hsame hplace)
  have hqueued : item.status = .queued := by
    simpa [h.mem_places, finishedAt, hitems] using hfresh
  have hplaces : finishedPlaces files (events ++ [(item.path, status)]) =
      finishedPlaces files events ++ [front.length] := by
    rw [finishedPlaces_append, hplace]
    rfl
  obtain ⟨tally, happly, hcount⟩ := apply_eq hitems hindex hqueued hfinal
  rw [happly]
  refine ⟨?_, ?_, ?_, ?_, ?_, ?_, ?_⟩
  · exact (itemsAfter_append hfiles (h.items.symm.trans hitems) hnew status).symm
  · have hstatus := h.status
    rw [hitems, List.forall_mem_append, List.forall_mem_cons] at hstatus
    exact List.forall_mem_append.mpr
      ⟨hstatus.1, List.forall_mem_cons.mpr ⟨.inr hfinal, hstatus.2.2⟩⟩
  · intro s
    rw [hcount, h.tally, hitems, tallied_middle, tallied_middle, hqueued]
    grind
  · dsimp only
    rw [h.recent, keepRecent_append, hplaces]
  · rw [hplaces]
    exact List.nodup_append.mpr ⟨h.places_nodup, List.nodup_singleton _, by grind⟩
  · intro i
    have hmiddle := finishedAt_middle hitems status i
    rw [hplaces, List.mem_append, List.mem_singleton, h.mem_places]
    change _ ↔ finishedAt { p with items := front ++ { item with status } :: back } i = true
    rw [hmiddle, bne_iff_ne.mpr (FileStatus.ne_queued hfinal)]
    by_cases hi : i = front.length <;> simp [hi]
  · have hlength := h.length_places
    rw [hitems, tallied_middle, if_pos hqueued] at hlength
    rw [hplaces, tallied_middle, if_neg (FileStatus.ne_queued hfinal), List.length_append,
      List.length_singleton]
    omega

/-- The event of an unknown file changes nothing. -/
theorem Follows.ignore (h : Follows files events p) (hpath : path ∉ files) :
    Follows files (events ++ [(path, status)]) (p.apply path status).1 := by
  obtain ⟨hindex, hplace⟩ := indexOf?_of_not_mem h.paths hpath
  have hsame : p.apply path status = (p, true) := by rw [apply, hindex]
  have hplaces : finishedPlaces files (events ++ [(path, status)]) = finishedPlaces files events :=
    by rw [finishedPlaces_append, hplace, Option.toList_none, List.append_nil]
  rw [hsame]
  refine ⟨?_, h.status, h.tally, ?_, ?_, ?_, ?_⟩
  · rw [h.items]
    refine List.map_congr_left fun other hother => ?_
    have hne : path ≠ other := fun h => hpath (h ▸ hother)
    rw [reached_append_of_ne hne]
  · rw [hplaces]
    exact h.recent
  · rw [hplaces]
    exact h.places_nodup
  · rw [hplaces]
    exact h.mem_places
  · rw [hplaces]
    exact h.length_places

/-! ## All events -/

/-- At first all files are queued. -/
theorem follows_start (title : Bytes) (files : List Bytes) : Follows files [] (start title files) := by
  refine ⟨rfl, ?_, ?_, rfl, List.nodup_nil, ?_, ?_⟩
  · intro item hitem
    obtain ⟨path, -, rfl⟩ := List.mem_map.mp hitem
    exact .inl rfl
  · intro s
    cases s <;> simp [start, Tally.count, tallied, List.countP_map, Function.comp_def]
  · intro i
    cases hfile : files[i]? <;> simp [start, finishedAt, finishedPlaces, hfile]
  · simp [start, tallied, finishedPlaces, List.countP_map, Function.comp_def]

/-- Of the events of each file that is followed there is at most one. -/
def Once (files : List Bytes) (events : List (Bytes × FileStatus)) : Prop :=
  ((events.map Prod.fst).filter (· ∈ files)).Nodup

instance (files : List Bytes) (events : List (Bytes × FileStatus)) :
    Decidable (Once files events) :=
  inferInstanceAs (Decidable (List.Nodup _))

theorem follows_follow (title : Bytes) (hfiles : files.Nodup)
    (events : List (Bytes × FileStatus)) (hfinal : ∀ e ∈ events, e.2.isFinal = true)
    (honce : Once files events) : Follows files events ((start title files).follow events) := by
  induction events using List.reverseRecOn with
  | nil => exact follows_start title files
  | append_singleton events e ih =>
      rw [List.forall_mem_append, List.forall_mem_singleton] at hfinal
      rw [Once, List.map_append, List.filter_append, List.nodup_append] at honce
      have hbefore := ih hfinal.1 honce.1
      rw [follow, List.foldl_append, List.foldl_cons, List.foldl_nil, ← follow]
      by_cases hpath : e.1 ∈ files
      · refine hbefore.finish hfiles hpath (fun e' he' hsame => ?_) hfinal.2
        refine honce.2.2 e.1 ?_ e.1 (by simp [hpath]) rfl
        exact List.mem_filter.mpr ⟨hsame ▸ List.mem_map_of_mem he', decide_eq_true hpath⟩
      · exact hbefore.ignore hpath

/-! ## The tally and the list -/

/-- Every file is counted in one place. -/
theorem length_eq_tallied (items : List ProgressItem)
    (h : ∀ item ∈ items, item.status = .queued ∨ item.status.isFinal = true) :
    items.length = tallied items .queued + tallied items .changed + tallied items .unchanged +
      tallied items .cached + tallied items .failed := by
  induction items with
  | nil => rfl
  | cons item items ih =>
      rw [List.forall_mem_cons] at h
      have hrest := ih h.2
      obtain ⟨path, status⟩ := item
      have hstatus := h.1
      unfold tallied at hrest ⊢
      cases status with
      | other n => simp [FileStatus.isFinal] at hstatus
      | _ => simp; omega

/-- What a list of places shows of a run whose files have finished in the order of `places`. -/
structure Lists (p : Progress) (places shown : List Nat) : Prop where
  length_le : shown.length ≤ 12
  nodup : shown.Nodup
  failed_first : ∃ failed others, shown = failed ++ others ∧
    failed <+: (List.range p.items.length).filter p.failedAt ∧
    others <+: places.reverse.filter (!p.failedAt ·)
  keeps_failed : ∀ i, p.failedAt i = true → i ∉ shown → shown.length = 12
  keeps_finished : ∀ i, p.finishedAt i = true → i ∉ shown →
    shown.length = 12 ∨ 12 < p.items.length - p.tally.queued

/-- What a cut list has lost shows that it is as long as it may be. -/
theorem length_take_of_not_mem {l : List Nat} {n i : Nat} (hmem : i ∈ l) (hcut : i ∉ l.take n) :
    (l.take n).length = n := by
  rw [List.length_take_of_le]
  rcases Nat.le_total n l.length with hle | hge
  · exact hle
  · rw [List.take_of_length_le hge] at hcut
    exact absurd hmem hcut

/-- The failed files that are listed. -/
def shownFailed (p : Progress) : List Nat :=
  ((List.range p.items.length).filter p.failedAt).take maxVisible

/-- The other files that are listed. -/
def shownOthers (p : Progress) : List Nat :=
  (p.recent.reverse.filter (!p.failedAt ·)).take (maxVisible - p.shownFailed.length)

theorem visible_eq (p : Progress) : p.visible = p.shownFailed ++ p.shownOthers := rfl

theorem length_shownFailed_le (p : Progress) : p.shownFailed.length ≤ maxVisible :=
  List.length_take_le _ _

theorem length_shownOthers_le (p : Progress) :
    p.shownOthers.length ≤ maxVisible - p.shownFailed.length :=
  List.length_take_le _ _

theorem failedAt_of_shownFailed {i : Nat} (h : i ∈ p.shownFailed) : p.failedAt i = true :=
  (List.mem_filter.mp (List.mem_of_mem_take h)).2

theorem failedAt_of_shownOthers {i : Nat} (h : i ∈ p.shownOthers) : p.failedAt i = false := by
  simpa using (List.mem_filter.mp (List.mem_of_mem_take h)).2

theorem length_visible_le (p : Progress) : p.visible.length ≤ maxVisible := by
  have hfailed := p.length_shownFailed_le
  have hothers := p.length_shownOthers_le
  rw [visible_eq, List.length_append]
  omega

/-- A failed file is hidden only in a full list. -/
theorem length_visible_of_failedAt {i : Nat} (h : p.failedAt i = true) (hhidden : i ∉ p.visible) :
    p.visible.length = maxVisible := by
  rw [visible_eq, List.mem_append, not_or] at hhidden
  obtain ⟨item, hitem, -⟩ := (Option.any_eq_true ..).mp h
  have hlt : i < p.items.length := (List.getElem?_eq_some_iff.mp hitem).1
  have hfull : p.shownFailed.length = maxVisible :=
    length_take_of_not_mem (List.mem_filter.mpr ⟨List.mem_range.mpr hlt, h⟩) hhidden.1
  have hothers := p.length_shownOthers_le
  rw [visible_eq, List.length_append]
  omega

/-- Among the latest files only a failed one is hidden, or the list is full. -/
theorem length_visible_of_recent {i : Nat} (h : i ∈ p.recent) (hhidden : i ∉ p.visible) :
    p.visible.length = maxVisible := by
  cases hfailed : p.failedAt i with
  | true => exact length_visible_of_failedAt hfailed hhidden
  | false =>
      rw [visible_eq, List.mem_append, not_or] at hhidden
      have hmem : i ∈ p.recent.reverse.filter (!p.failedAt ·) :=
        List.mem_filter.mpr ⟨List.mem_reverse.mpr h, by simp [hfailed]⟩
      have hfull : p.shownOthers.length = maxVisible - p.shownFailed.length :=
        length_take_of_not_mem hmem hhidden.2
      have hle := p.length_shownFailed_le
      rw [visible_eq, List.length_append]
      omega

theorem Follows.reverse_recent (h : Follows files events p) :
    p.recent.reverse = (finishedPlaces files events).reverse.take maxVisible := by
  rw [h.recent, keepRecent, List.take_reverse]

theorem Follows.nodup_visible (h : Follows files events p) : p.visible.Nodup := by
  have hrecent : p.recent.reverse.Nodup := by
    rw [h.reverse_recent]
    exact (List.nodup_reverse.mpr h.places_nodup).sublist (List.take_sublist _ _)
  rw [visible_eq, List.nodup_append]
  refine ⟨(List.nodup_range.filter _).sublist (List.take_sublist _ _),
    (hrecent.filter _).sublist (List.take_sublist _ _), ?_⟩
  rintro i hi _ hj rfl
  exact Bool.false_ne_true ((failedAt_of_shownOthers hj).symm.trans (failedAt_of_shownFailed hi))

/-- While at most twelve files have finished, all of them are recent. -/
theorem Follows.mem_recent {i : Nat} (h : Follows files events p) (hi : p.finishedAt i = true)
    (hfew : (finishedPlaces files events).length ≤ maxVisible) : i ∈ p.recent := by
  rw [← List.mem_reverse, h.reverse_recent, List.take_of_length_le (by simpa using hfew)]
  exact List.mem_reverse.mpr ((h.mem_places i).mpr hi)

theorem Follows.length_items (h : Follows files events p) : p.items.length = files.length := by
  rw [← h.paths, List.length_map]

theorem Follows.lists_visible (h : Follows files events p) :
    Lists p (finishedPlaces files events) p.visible := by
  refine ⟨p.length_visible_le, h.nodup_visible,
    ⟨p.shownFailed, p.shownOthers, rfl, List.take_prefix _ _, ?_⟩,
    fun _ => length_visible_of_failedAt, fun i hi hhidden => ?_⟩
  · have hrecent : p.recent.reverse <+: (finishedPlaces files events).reverse := by
      rw [h.reverse_recent]
      exact List.take_prefix _ _
    exact (List.take_prefix _ _).trans (hrecent.filter _)
  · rcases Nat.lt_or_ge maxVisible (finishedPlaces files events).length with hmany | hfew
    · right
      have hplaces := h.length_places
      have htally : p.tally.queued = tallied p.items .queued := h.tally .queued
      rw [h.length_items, htally]
      unfold maxVisible at hmany
      omega
    · exact .inl (length_visible_of_recent (h.mem_recent hi hfew) hhidden)

/-- Every file is counted once. -/
theorem Follows.total (h : Follows files events p) : p.tally.total = files.length := by
  have hsum := length_eq_tallied p.items h.status
  have htotal : p.tally.total = p.tally.count .queued + p.tally.count .changed +
      p.tally.count .unchanged + p.tally.count .cached + p.tally.count .failed := rfl
  rw [htotal, h.tally, h.tally, h.tally, h.tally, h.tally, ← h.length_items]
  omega

/-- A final event finds its counts. -/
theorem apply_counted (hstatus : ∀ item ∈ p.items, item.status = .queued ∨ item.status.isFinal = true)
    (hfinal : status.isFinal = true) : (p.apply path status).2 = true := by
  rw [apply]
  split
  case h_1 => rfl
  case h_2 i _ =>
    split
    case h_1 => rfl
    case h_2 item hitem =>
      obtain ⟨less, hless, -⟩ := p.tally.exists_add? (-1) (hstatus item (List.mem_of_getElem? hitem))
      obtain ⟨more, hmore, -⟩ := less.exists_add? 1 (.inr hfinal)
      simp only [hless, hmore]

end Progress

end VhdlStyle
