import VhdlStyle.Trace.Level
import VhdlStyle.Time
import VhdlStyle.Text.JsonTree

/-! # Trace events and their lines -/

namespace VhdlStyle.Trace

/-- What an event reports. -/
inductive EventKind where
  | spanBegin
  | spanEnd
  | point
  | unknown
  deriving DecidableEq, Inhabited

/-- The name of a kind. -/
def EventKind.name : EventKind → Bytes
  | .spanBegin => "begin"
  | .spanEnd => "end"
  | .point => "point"
  | .unknown => "unknown"

/-- The mark of a kind. -/
def EventKind.mark : EventKind → Bytes
  | .spanBegin => "→ "
  | .spanEnd => "← "
  | .point => "• "
  | .unknown => []

/-- One record of a trace. Number zero stands for no span and no parent. -/
structure Event where
  time : Instant := {}
  seq : Nat := 0
  kind : EventKind
  scope : Scope
  span : Nat := 0
  parent : Nat := 0
  name : Bytes
  detail : Bytes := []
  elapsed : Duration := ⟨0⟩
  fields : List (Bytes × Bytes) := []
  deriving DecidableEq, Inhabited

namespace Event

/-- The fields by name. -/
def sortedFields (e : Event) : List (Bytes × Bytes) :=
  e.fields.mergeSort fun a b => Bytes.le a.1 b.1

/-- The event as a line for people. -/
def line (e : Event) : Bytes :=
  let detail := if e.detail.isEmpty then [] else List.flatten [" (", e.detail, ")"]
  let elapsed : Bytes := if e.kind == .spanEnd then ' ' :: (e.elapsed.round 1000).text else []
  let fields := if e.fields.isEmpty then []
    else List.flatten [" \x7b",
      Bytes.join ", " (e.sortedFields.map fun f => List.flatten [f.1, "=", f.2]), "\x7d"]
  List.flatten ["#", Bytes.padRight 5 Bytes.space (Bytes.ofNat e.seq), " ",
    Bytes.padRight 6 Bytes.space e.scope.name, " ", if e.parent == 0 then [] else "  ",
    e.kind.mark, e.name, detail, elapsed, fields, "\n"]

/-- The event as a line for programs. -/
def jsonLine (e : Event) : Bytes :=
  let fields := if e.fields.isEmpty then none
    else some (JsonTree.object (e.sortedFields.map fun f => .mk f.1 (.text f.2)))
  (JsonTree.record [
    ("time", some (.text e.time.text)),
    ("seq", some (.number e.seq)),
    ("kind", some (.text e.kind.name)),
    ("scope", some (.text e.scope.name)),
    ("span_id", JsonTree.number? e.span),
    ("parent_id", JsonTree.number? e.parent),
    ("name", some (.text e.name)),
    ("detail", JsonTree.text? e.detail),
    ("elapsed_us", JsonTree.number? e.elapsed.micros),
    ("fields", fields)]).compact ++ [Bytes.lf]

/-- The event in an encoding. -/
def render (e : Event) : Encoding → Bytes
  | .json => e.jsonLine
  | _ => e.line

end Event

end VhdlStyle.Trace
