import VhdlStyle.Casing
import VhdlStyle.Doc.Layout

/-! # Settings

The settings of the formatter as they are written. Words are kept as texts: formatting gives every
text a meaning, and only validation tells good words from bad ones. -/

namespace VhdlStyle

/-- All settings; the defaults are those of a missing settings file. -/
structure Settings where
  lineLength : Int := 100
  indentSize : Int := 2
  indentStyle : Bytes := "spaces"
  eol : Bytes := "auto"
  requiredVersion : Bytes := []
  keywordCase : Bytes := "lower_case"
  constantCase : Bytes := "UPPER_CASE"
  identifierCase : Bytes := "lower_case"
  alignSignals : Bool := true
  alignColons : Bool := true
  alignTypes : Bool := true
  alignInitialization : Bool := true
  deriving DecidableEq, Inhabited

namespace Settings

/-- The style a text asks for; a bad word leaves the class as it is. -/
def styleOf (text : Bytes) : CaseStyle := (CaseStyle.parse? text).getD .preserve

/-- The casing without any constants. -/
def casing (s : Settings) : Casing where
  keywords := styleOf s.keywordCase
  constants := styleOf s.constantCase
  identifiers := styleOf s.identifierCase

/-- Lines are indented with tabs. -/
def tabs (s : Settings) : Bool := s.indentStyle == "tabs"

/-- The line terminator to write; `auto` follows the source, and a bad word means LF. -/
def newline (s : Settings) (sourceCrlf : Bool) : Bytes :=
  if s.eol == "crlf" || (s.eol == "auto" && sourceCrlf) then "\r\n" else "\n"

/-- How documents are laid out. -/
def layout (s : Settings) (newline : Bytes) : LayoutOptions where
  width := s.lineLength
  indentSize := s.indentSize
  tabs := s.tabs
  newline := newline

end Settings

end VhdlStyle
