import VhdlStyle.Trace.Event

/-! # The ring of the latest events

A ring has a fixed number of slots. New events go to the next slot, and from the last slot on to the
first again, where they take the place of the oldest. -/

namespace VhdlStyle.Trace

/-- The slots, the one to write next, and whether all of them have been written. -/
structure Ring where
  level : Level
  slots : Array Event
  next : Nat := 0
  wrapped : Bool := false
  next_lt : next < slots.size

instance : Inhabited Ring := ⟨{ level := .off, slots := #[default], next_lt := Nat.one_pos }⟩

namespace Ring

/-- The capacity when none is asked for. -/
def defaultCapacity : Nat := 4096

/-- The number of slots for the capacity asked for; one below one means the usual number. -/
def slotsFor (capacity : Int) : Nat := if capacity ≤ 0 then defaultCapacity else capacity.toNat

theorem slotsFor_pos (capacity : Int) : 0 < slotsFor capacity := by
  unfold slotsFor
  split
  · decide
  · omega

/-- A ring in which nothing has been written. -/
def ofCapacity (capacity : Int) (level : Level) : Ring where
  level := level
  slots := Array.replicate (slotsFor capacity) default
  next_lt := by rw [Array.size_replicate]; exact slotsFor_pos capacity

/-- Writes an event that passes the level. -/
def emit (r : Ring) (e : Event) : Ring :=
  if !r.level.admits e.scope then r
  else
    let next := (r.next + 1) % r.slots.size
    { r with
      slots := r.slots.set r.next e r.next_lt
      next
      wrapped := r.wrapped || next == 0
      next_lt := by rw [Array.size_set]; exact Nat.mod_lt _ (Nat.zero_lt_of_lt r.next_lt) }

/-- The events in the ring, oldest first. -/
def toList (r : Ring) : List Event :=
  let written := r.slots.toList.take r.next
  if r.wrapped then r.slots.toList.drop r.next ++ written else written

/-- The lines of the events, oldest first. -/
def dump (r : Ring) (encoding : Encoding) : Bytes := r.toList.flatMap (·.render encoding)

end Ring

end VhdlStyle.Trace
