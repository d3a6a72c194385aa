import VhdlStyle.Text.CaseMap
import VhdlStyle.Text.Quoted

/-! # Trace levels, scopes and stores -/

namespace VhdlStyle.Trace

/-- How coarse an event is; smaller ranks are coarser. -/
structure Scope where
  rank : UInt8
  deriving DecidableEq, Inhabited

namespace Scope

/-- One command. -/
def driver : Scope := ⟨1⟩

/-- One step of a command. -/
def pass : Scope := ⟨2⟩

/-- One source file. -/
def file : Scope := ⟨3⟩

/-- One part of a file. -/
def node : Scope := ⟨4⟩

/-- The name of a scope. -/
def name (s : Scope) : Bytes :=
  match s.rank.toNat with
  | 1 => "driver"
  | 2 => "pass"
  | 3 => "file"
  | 4 => "node"
  | _ => "unknown"

end Scope

/-- How much is traced. Numbers outside the list name no level. -/
inductive Level where
  | off
  | error
  | phase
  | detail
  | debug
  | other (number : UInt8)
  deriving DecidableEq, Inhabited

namespace Level

/-- All levels with a name, the quiet ones first. -/
def all : List Level := [.off, .error, .phase, .detail, .debug]

/-- The name of a level. -/
def name : Level → Bytes
  | .off => "off"
  | .error => "error"
  | .phase => "phase"
  | .detail => "detail"
  | .debug => "debug"
  | .other _ => "unknown"

/-- Events of the scope pass the level. -/
def admits (l : Level) (s : Scope) : Bool :=
  match l with
  | .off | .other _ => false
  | .error | .phase => s.rank ≤ Scope.pass.rank
  | .detail => s.rank ≤ Scope.file.rank
  | .debug => true

end Level

/-- Where events are kept; `other` stands for a store that does not exist. -/
inductive Store where
  | stream
  | ring
  | both
  | other
  deriving DecidableEq, Inhabited

/-- The name of a store. -/
def Store.name : Store → Bytes
  | .stream => "stream"
  | .ring => "ring"
  | .both => "both"
  | .other => "unknown"

/-- How events are written; `auto` leaves the choice to the name of the output. -/
inductive Encoding where
  | auto
  | lines
  | json
  deriving DecidableEq, Inhabited

/-- The name of an encoding. -/
def Encoding.name : Encoding → Bytes
  | .auto => "auto"
  | .lines => "text"
  | .json => "ndjson"

/-- Why no tracer could be made. -/
inductive Fault where
  | badLevel (text : Bytes)
  | badStore (text : Bytes)
  | badEncoding (text : Bytes)
  | noStore (store : Store)
  deriving DecidableEq, Inhabited

/-- The fault in words. -/
def Fault.message : Fault → Bytes
  | .badLevel t => List.flatten ["invalid trace level: ", Quoted.quote t, " (expected: ",
      Bytes.join "|" (Level.all.map Level.name), ")"]
  | .badStore t => List.flatten ["invalid storage mode: ", Quoted.quote t,
      " (expected: stream|ring|both)"]
  | .badEncoding t => List.flatten ["invalid trace format: ", Quoted.quote t,
      " (expected: auto|text|ndjson)"]
  | .noStore s => Bytes.ofString "unknown storage mode: " ++ s.name

/-- Reads the name of a level in any case. -/
def Level.parse (text : Bytes) : Except Fault Level :=
  match Level.all.find? fun l => CaseMap.equalFold text l.name with
  | some l => .ok l
  | none => .error (.badLevel text)

/-- Reads the name of a store in any case. -/
def Store.parse (text : Bytes) : Except Fault Store :=
  match [Store.stream, .ring, .both].find? fun s => CaseMap.toLower text == s.name with
  | some s => .ok s
  | none => .error (.badStore text)

/-- Reads the name of an encoding in any case. -/
def Encoding.parse (text : Bytes) : Except Fault Encoding :=
  let small := CaseMap.toLower text
  if small.isEmpty || small == "auto" then .ok .auto
  else if small == "text" then .ok .lines
  else if small == "ndjson" || small == "json" then .ok .json
  else .error (.badEncoding text)

end VhdlStyle.Trace
