import Mathlib.Data.List.Infix
import VhdlStyle.Trace.Tracer

/-! # The ring holds the latest events

What a ring shows is read from the slot to write next, so each event comes last and, once all slots
are taken, costs the first. From this step the ring shows, after any events, as many of the latest
as it has slots. A tracer with a stream beside the ring hands the ring the same events. -/

namespace VhdlStyle.Trace

/-- The end of some events: all of them, or as many as there are slots. -/
structure LatestOf (slots : Nat) (events shown : List Event) : Prop where
  suffix : shown <:+ events
  length : shown.length = min events.length slots

namespace Ring

variable {r : Ring} {e : Event} {events : List Event}

/-! ## One event -/

theorem emit_of_not_admits (h : r.level.admits e.scope = false) : r.emit e = r := by
  simp [emit, h]

@[simp] theorem level_emit (r : Ring) (e : Event) : (r.emit e).level = r.level := by
  unfold emit
  split <;> rfl

@[simp] theorem size_emit (r : Ring) (e : Event) : (r.emit e).slots.size = r.slots.size := by
  unfold emit
  split
  · rfl
  · exact Array.size_set r.next_lt

/-- The slots around the one to write next. -/
theorem exists_slots (r : Ring) : ∃ front old back,
    r.slots.toList = front ++ old :: back ∧ front.length = r.next := by
  have hlt : r.next < r.slots.toList.length := r.next_lt
  refine ⟨r.slots.toList.take r.next, r.slots.toList[r.next], r.slots.toList.drop (r.next + 1),
    ?_, List.length_take_of_le (Nat.le_of_lt hlt)⟩
  rw [← List.drop_eq_getElem_cons hlt, List.take_append_drop]

theorem size_eq {front back : List Event} {old : Event}
    (hslots : r.slots.toList = front ++ old :: back) :
    r.slots.size = front.length + (back.length + 1) := by
  rw [← Array.length_toList, hslots, List.length_append, List.length_cons]

theorem toList_eq {front back : List Event} {old : Event}
    (hslots : r.slots.toList = front ++ old :: back) (hnext : front.length = r.next) :
    r.toList = if r.wrapped then old :: back ++ front else front := by
  rw [toList, hslots, ← hnext, List.take_left, List.drop_left]

theorem length_toList (r : Ring) :
    r.toList.length = if r.wrapped then r.slots.size else r.next := by
  obtain ⟨front, old, back, hslots, hnext⟩ := r.exists_slots
  have hsize := size_eq hslots
  rw [toList_eq hslots hnext, ← hnext, hsize]
  split
  · simp only [List.cons_append, List.length_cons, List.length_append]
    omega
  · rfl

/-- An event that passes comes last; in a ring that is full the first one is lost. -/
theorem toList_emit (h : r.level.admits e.scope = true) :
    (r.emit e).toList = (if r.wrapped then r.toList.tail else r.toList) ++ [e] := by
  obtain ⟨front, old, back, hslots, hnext⟩ := r.exists_slots
  have hsize := size_eq hslots
  have hwritten : (r.emit e).slots.toList = front ++ e :: back := by
    simp [emit, h, hslots, ← hnext]
  have hplace : (r.emit e).next = (r.next + 1) % r.slots.size := by simp [emit, h]
  have hflag : (r.emit e).wrapped = (r.wrapped || (r.next + 1) % r.slots.size == 0) := by
    simp [emit, h]
  rw [toList_eq hslots hnext]
  cases back with
  | nil =>
      -- the last slot was written: the next event goes to the first
      have hzero : (r.next + 1) % r.slots.size = 0 := by
        rw [hsize, ← hnext]
        exact Nat.mod_self _
      rw [toList, hwritten, hplace, hflag, hzero]
      cases r.wrapped <;> simp
  | cons next back =>
      have hsucc : (r.next + 1) % r.slots.size = front.length + 1 := by
        rw [hsize, hnext, List.length_cons]
        exact Nat.mod_eq_of_lt (by omega)
      have hfront : (front ++ [e]).length = (r.emit e).next := by simp [hplace, hsucc]
      have hback : (r.emit e).slots.toList = (front ++ [e]) ++ next :: back := by simp [hwritten]
      rw [toList_eq hback hfront, hflag, hsucc]
      cases r.wrapped <;> simp

/-- A ring goes on showing the end of the events that passed. -/
theorem latestOf_emit (h : LatestOf r.slots.size events r.toList)
    (hadmits : r.level.admits e.scope = true) :
    LatestOf r.slots.size (events ++ [e]) (r.emit e).toList := by
  have hlt := r.next_lt
  have hshown := r.length_toList
  have hlength := h.length
  obtain ⟨older, hevents⟩ := h.suffix
  rw [toList_emit hadmits]
  cases hwrapped : r.wrapped with
  | false =>
      rw [hwrapped, if_neg Bool.false_ne_true] at hshown
      rw [if_neg Bool.false_ne_true]
      refine ⟨⟨older, by rw [← hevents, List.append_assoc]⟩, ?_⟩
      rw [List.length_append, List.length_append, List.length_singleton]
      omega
  | true =>
      rw [hwrapped, if_pos rfl] at hshown
      rw [if_pos rfl]
      obtain ⟨oldest, rest, hcons⟩ := List.exists_cons_of_length_pos (l := r.toList) (by omega)
      rw [hcons, List.length_cons] at hshown hlength
      rw [hcons] at hevents
      rw [hcons, List.tail_cons]
      refine ⟨⟨older ++ [oldest], by simp [← hevents]⟩, ?_⟩
      rw [List.length_append, List.length_append, List.length_singleton]
      omega

/-! ## All events -/

theorem latestOf_foldl (h : LatestOf r.slots.size events r.toList) (more : List Event) :
    LatestOf r.slots.size (events ++ more.filter fun e => r.level.admits e.scope)
      (more.foldl emit r).toList := by
  induction more generalizing r events with
  | nil => simpa using h
  | cons e more ih =>
      rw [List.foldl_cons]
      cases hadmits : r.level.admits e.scope with
      | false =>
          rw [emit_of_not_admits hadmits, List.filter_cons_of_neg (by simp [hadmits])]
          exact ih h
      | true =>
          have hnext : LatestOf (r.emit e).slots.size (events ++ [e]) (r.emit e).toList := by
            rw [size_emit]
            exact latestOf_emit h hadmits
          have hrest := ih hnext
          rw [size_emit, level_emit] at hrest
          rwa [List.filter_cons_of_pos (by simpa using hadmits), ← List.singleton_append,
            ← List.append_assoc]

theorem size_ofCapacity (capacity : Int) (level : Level) :
    (ofCapacity capacity level).slots.size = slotsFor capacity :=
  Array.size_replicate

theorem latestOf_ofCapacity (capacity : Int) (level : Level) (events : List Event) :
    LatestOf (slotsFor capacity) (events.filter fun e => level.admits e.scope)
      (events.foldl emit (ofCapacity capacity level)).toList := by
  have hempty : LatestOf (ofCapacity capacity level).slots.size []
      (ofCapacity capacity level).toList := ⟨List.suffix_rfl, (Nat.zero_min _).symm⟩
  have hall := latestOf_foldl hempty events
  rwa [size_ofCapacity, List.nil_append] at hall

end Ring

/-! ## A stream beside the ring -/

namespace Tracer

/-- The tracer hands on an event, and its stream becomes whatever it may. -/
def emitBeside (t : Tracer) (step : Event × Option Stream) : Tracer :=
  { t.emit step.1 with stream := step.2 }

theorem ring_foldl_emitBeside {t : Tracer} {r : Ring} (h : t.ring = some r)
    (steps : List (Event × Option Stream)) :
    (steps.foldl emitBeside t).ring = some ((steps.map Prod.fst).foldl Ring.emit r) := by
  induction steps generalizing t r with
  | nil => exact h
  | cons step steps ih =>
      have hstep : (t.emitBeside step).ring = some (r.emit step.1) := by
        simp [emitBeside, emit, h]
      exact ih hstep

end Tracer

/-- After any events a ring shows, oldest first, the end of those that pass its level: all, or as
many as it has slots. The ring of a tracer that also has a stream is the one that got the same
events alone, whatever becomes of the stream. -/
theorem ring_shows_latest (capacity : Int) (level : Level) :
    (∀ events : List Event,
      LatestOf (if capacity ≤ 0 then 4096 else capacity.toNat)
        (events.filter fun e => level.admits e.scope)
        (events.foldl Ring.emit (Ring.ofCapacity capacity level)).toList) ∧
    (level ≠ .off → ∀ options : TracerOptions, options.store = .both → options.level = level →
      options.ringSize = capacity →
      ∃ t, Tracer.ofOptions options = .ok t ∧ ∀ steps : List (Event × Option Stream),
        (steps.foldl Tracer.emitBeside t).ring =
          some ((steps.map Prod.fst).foldl Ring.emit (Ring.ofCapacity capacity level))) := by
  constructor
  · exact Ring.latestOf_ofCapacity capacity level
  · rintro hlevel options hstore rfl rfl
    have hmade : Tracer.ofOptions options = .ok
        { level := options.level
          stream := some { encoding := options.streamEncoding }
          ring := some (Ring.ofCapacity options.ringSize options.level) } := by
      simp [Tracer.ofOptions, hlevel, hstore]
    exact ⟨_, hmade, Tracer.ring_foldl_emitBeside rfl⟩

/-- Of three events that pass a level a ring of two shows the last two. At level `error` a stream
that is lost does not matter to the ring beside it. -/
theorem ring_shows_latest_two :
    let event (scope : Scope) (name : Bytes) : Event := { kind := .point, scope, name }
    let events := [event .pass "a", event .file "b", event .driver "c", event .pass "d"]
    let ring := events.foldl Ring.emit (Ring.ofCapacity 2 .error)
    LatestOf 2 [event .pass "a", event .driver "c", event .pass "d"] ring.toList ∧
      ring.toList = [event .driver "c", event .pass "d"] ∧
      ∃ t, Tracer.ofOptions { level := .error, store := .both, ringSize := 2 } = .ok t ∧
        ((events.map (·, none)).foldl Tracer.emitBeside t).ring = some ring := by
  intro event events ring
  obtain ⟨hshown, hbeside⟩ := ring_shows_latest 2 .error
  obtain ⟨t, hmade, hring⟩ := hbeside (by decide)
    { level := .error, store := .both, ringSize := 2 } rfl rfl rfl
  exact ⟨hshown events, by decide, t, hmade, hring (events.map (·, none))⟩

end VhdlStyle.Trace
