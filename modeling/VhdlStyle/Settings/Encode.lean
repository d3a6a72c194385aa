import VhdlStyle.Settings.Basic
import VhdlStyle.Toml.Basic

/-! # Settings as a TOML text -/

namespace VhdlStyle.Settings

/-- A line of the text. -/
def line (margin name value : Bytes) : Bytes :=
  List.flatten [margin, name, " = ", value, "\n"]

/-- A truth value. -/
def boolText (b : Bool) : Bytes := if b then "true" else "false"

/-- A table with its heading. -/
def sectionText (name : Bytes) (entries : List (Bytes × Bytes)) : Bytes :=
  List.flatten ["\n[", name, "]\n", entries.flatMap fun e => line "  " e.1 e.2]

/-- All settings in their order; a missing version constraint is left out. -/
def encode (s : Settings) : Bytes :=
  List.flatten [
    line [] "line_length" (Bytes.ofInt s.lineLength),
    line [] "indent_size" (Bytes.ofInt s.indentSize),
    line [] "indent_style" (Toml.quote s.indentStyle),
    line [] "eol" (Toml.quote s.eol),
    if s.requiredVersion.isEmpty then []
    else line [] "required_version" (Toml.quote s.requiredVersion),
    sectionText "casing" [("keywords", Toml.quote s.keywordCase),
      ("constants", Toml.quote s.constantCase), ("identifiers", Toml.quote s.identifierCase)],
    sectionText "port_map" [("align_signals", boolText s.alignSignals)],
    sectionText "declarations" [("align_colons", boolText s.alignColons),
      ("align_types", boolText s.alignTypes),
      ("align_initialization", boolText s.alignInitialization)]]

end VhdlStyle.Settings
