import VhdlStyle.Settings.Validate
import VhdlStyle.Toml.Reader

/-! # Settings from a TOML document

Names of settings are matched exactly or, failing that, in any case. Settings that a document does
not give keep their defaults; keys that name no setting are reported, in the order in which they
are written. -/

namespace VhdlStyle.Settings

/-- Enters a value into settings; it fails when the value has the wrong type. -/
abbrev Setter := Toml.Value → Settings → Option Settings

/-- A number. -/
def int? : Toml.Value → Option Int
  | .integer n => some n
  | _ => none

/-- A text. -/
def text? : Toml.Value → Option Bytes
  | .text t => some t
  | _ => none

/-- A truth value. -/
def bool? : Toml.Value → Option Bool
  | .bool b => some b
  | _ => none

/-- The settings at the top of a document. -/
def topFields : List (String × Setter) :=
  [("line_length", fun v s => (int? v).map fun n => { s with lineLength := n }),
   ("indent_size", fun v s => (int? v).map fun n => { s with indentSize := n }),
   ("indent_style", fun v s => (text? v).map fun t => { s with indentStyle := t }),
   ("eol", fun v s => (text? v).map fun t => { s with eol := t }),
   ("required_version", fun v s => (text? v).map fun t => { s with requiredVersion := t })]

/-- The settings of each table. -/
def sections : List (String × List (String × Setter)) :=
  [("casing",
     [("keywords", fun v s => (text? v).map fun t => { s with keywordCase := t }),
      ("constants", fun v s => (text? v).map fun t => { s with constantCase := t }),
      ("identifiers", fun v s => (text? v).map fun t => { s with identifierCase := t })]),
   ("port_map",
     [("align_signals", fun v s => (bool? v).map fun b => { s with alignSignals := b })]),
   ("declarations",
     [("align_colons", fun v s => (bool? v).map fun b => { s with alignColons := b }),
      ("align_types", fun v s => (bool? v).map fun b => { s with alignTypes := b }),
      ("align_initialization",
        fun v s => (bool? v).map fun b => { s with alignInitialization := b })])]

/-- The entry with a name, or the first one with that name in another case. -/
def lookup {α : Type} (entries : List (String × α)) (name : Bytes) : Option α :=
  match entries.find? fun e => Bytes.ofString e.1 == name with
  | some e => some e.2
  | none => (entries.find? fun e => CaseMap.equalFold (Bytes.ofString e.1) name).map (·.2)

/-- Enters the entries of a table; the names that are settings come with the result. -/
def enterTable (fields : List (String × Setter)) :
    Toml.Table → Settings → Option (Settings × List Bytes)
  | [], s => some (s, [])
  | (name, value) :: rest, s =>
    match lookup fields name with
    | none => enterTable fields rest s
    | some set => do
      let s ← set value s
      let (s, names) ← enterTable fields rest s
      return (s, name :: names)

/-- The fields of the top and of the tables in one list. -/
def allFields : List (String × (Setter ⊕ List (String × Setter))) :=
  topFields.map (fun (n, f) => (n, .inl f)) ++ sections.map (fun (n, fs) => (n, .inr fs))

/-- Enters the top table; the keys that are settings come with the result. -/
def enterRoot : Toml.Table → Settings → Option (Settings × List Toml.Key)
  | [], s => some (s, [])
  | (name, value) :: rest, s =>
    match lookup allFields name with
    | none => enterRoot rest s
    | some (.inl set) => do
      let s ← set value s
      let (s, keys) ← enterRoot rest s
      return (s, [name] :: keys)
    | some (.inr fields) =>
      match value with
      | .table entries => do
        let (s, names) ← enterTable fields entries s
        let (s, keys) ← enterRoot rest s
        return (s, [name] :: names.map (fun n => [name, n]) ++ keys)
      | _ => none

/-- The warning about a key that names no setting. -/
def unknownKeyWarning (key : Toml.Key) : Bytes :=
  List.flatten [Code.unknownKey.id, ": unknown key ", Quoted.quote (Toml.Key.text key)]

/-- Settings from a TOML text over the defaults, with the warnings. -/
def decode (text : Bytes) : Except Fault (Settings × List Bytes) :=
  match Toml.Document.parse? text with
  | none => .error .undecodable
  | some doc =>
    match enterRoot doc.root {} with
    | none => .error .undecodable
    | some (s, known) =>
      .ok (s, (doc.keys.filter (!known.contains ·)).map unknownKeyWarning)

end VhdlStyle.Settings
