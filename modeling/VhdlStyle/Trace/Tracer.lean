import VhdlStyle.Trace.Ring

/-! # Tracers

A tracer numbers events and spans and hands every event to its stream and its ring. Spans that do
not pass the level are inert: they have number zero and never report. -/

namespace VhdlStyle.Trace

/-- Lines written as events arrive. -/
structure Stream where
  encoding : Encoding
  text : Bytes := []
  deriving Inhabited

/-- What receives the events of a run, and the numbers given so far. -/
structure Tracer where
  level : Level := .off
  stream : Option Stream := none
  ring : Option Ring := none
  lastSeq : Nat := 0
  lastSpan : Nat := 0
  deriving Inhabited

/-- A stretch of work that has begun. -/
structure Span where
  id : Nat := 0
  parent : Nat := 0
  scope : Scope
  name : Bytes
  started : Instant := {}
  fields : List (Bytes × Bytes) := []
  deriving Inhabited

/-- The span reports its end. -/
def Span.isLive (s : Span) : Bool := s.id != 0

/-- Attaches a field to the end event; a field of the same name is replaced. -/
def Span.field (s : Span) (name value : Bytes) : Span :=
  if s.isLive then { s with fields := s.fields.filter (·.1 != name) ++ [(name, value)] } else s

/-- What a tracer is made from. -/
structure TracerOptions where
  level : Level
  store : Store
  encoding : Encoding := .auto
  outputPath : Bytes := []
  ringSize : Int := 0
  deriving Inhabited

/-- The encoding of a stream: the one asked for, else by the name of the output. -/
def TracerOptions.streamEncoding (o : TracerOptions) : Encoding :=
  match o.encoding with
  | .auto => if Bytes.endsWith ".ndjson" o.outputPath then .json else .lines
  | e => e

namespace Tracer

/-- A tracer with an empty stream, an empty ring, or both. At level `off` it keeps nothing. -/
def ofOptions (o : TracerOptions) : Except Fault Tracer :=
  let stream : Stream := { encoding := o.streamEncoding }
  let ring := Ring.ofCapacity o.ringSize o.level
  if o.level == .off then .ok {}
  else match o.store with
    | .ring => .ok { level := o.level, ring := some ring }
    | .stream => .ok { level := o.level, stream := some stream }
    | .both => .ok { level := o.level, stream := some stream, ring := some ring }
    | .other => .error (.noStore o.store)

/-- The tracer keeps anything at all. -/
def isEnabled (t : Tracer) : Bool := t.level != .off

/-- The stream after an event; at level `error` it stays silent. -/
def writeStream (level : Level) (s : Stream) (e : Event) : Stream :=
  if level == .error || !level.admits e.scope then s
  else { s with text := s.text ++ e.render s.encoding }

/-- Hands an event to stream and ring. -/
def emit (t : Tracer) (e : Event) : Tracer :=
  { t with
    stream := t.stream.map fun s => writeStream t.level s e
    ring := t.ring.map (·.emit e) }

/-- Numbers an event and hands it on. -/
def record (t : Tracer) (e : Event) : Tracer :=
  let seq := t.lastSeq + 1
  { t.emit { e with seq } with lastSeq := seq }

/-- Events of the scope are wanted. -/
def wants (t : Tracer) (scope : Scope) : Bool := t.isEnabled && t.level.admits scope

/-- Begins a span under the span numbered `parent`. -/
def beginSpan (t : Tracer) (now : Instant) (scope : Scope) (name : Bytes) (parent : Nat) :
    Span × Tracer :=
  if !t.wants scope then ({ scope, name }, t)
  else
    let id := t.lastSpan + 1
    let t := t.record
      { time := now, kind := .spanBegin, scope, span := id, parent, name }
    ({ id, parent, scope, name, started := now }, { t with lastSpan := id })

/-- Reports the end of a span. -/
def endSpan (t : Tracer) (now : Instant) (s : Span) (detail : Bytes) : Tracer :=
  if !s.isLive then t
  else t.record
    { time := now, kind := .spanEnd, scope := s.scope, span := s.id, parent := s.parent,
      name := s.name, detail, elapsed := now.since s.started, fields := s.fields }

/-- Reports a single moment. -/
def point (t : Tracer) (now : Instant) (scope : Scope) (name detail : Bytes) (parent : Nat) :
    Tracer :=
  if !t.wants scope then t
  else t.record { time := now, kind := .point, scope, parent, name, detail }

end Tracer

end VhdlStyle.Trace
