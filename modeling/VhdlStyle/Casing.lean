import VhdlStyle.Text.CaseMap
import VhdlStyle.Text.Quoted

/-! # Casing

Reserved words and names are re-cased when they are printed. Literals and extended identifiers
are always printed as they are. -/

namespace VhdlStyle

/-- The styles a class of words can be written in. -/
inductive CaseStyle where
  | lower
  | upper
  | preserve
  | snake
  deriving DecidableEq, Inhabited

namespace CaseStyle

/-- All styles, in the order in which messages list them. -/
def all : List CaseStyle := [.lower, .upper, .preserve, .snake]

/-- The name of the style in settings. -/
def name : CaseStyle → Bytes
  | .lower => "lower_case"
  | .upper => "UPPER_CASE"
  | .preserve => "preserve"
  | .snake => "snake_case"

/-- The style with a name; a text that names none leaves words as they are. -/
def ofName (text : Bytes) : CaseStyle :=
  if text == CaseStyle.lower.name then .lower
  else if text == CaseStyle.upper.name then .upper
  else if text == CaseStyle.snake.name then .snake
  else .preserve

/-- The style that a text asks for: a name, or `lower` and `upper` for short. -/
def parse? (text : Bytes) : Option CaseStyle :=
  if text == CaseStyle.lower.name || text == "lower" then some .lower
  else if text == CaseStyle.upper.name || text == "upper" then some .upper
  else if text == CaseStyle.preserve.name then some .preserve
  else if text == CaseStyle.snake.name then some .snake
  else none

/-- Says that a text asks for no style. -/
def unknownMessage (text : Bytes) : Bytes := "unknown casing style " ++ Quoted.quote text

/-- Extended identifiers and literals start with a backslash, a quote or a digit; bit strings
contain a quote. They are never re-cased, and neither is the empty text. -/
def isVerbatim (text : Bytes) : Bool :=
  match text with
  | [] => true
  | b :: _ =>
    b == '\\' || b == '"' || b == '\'' || Bytes.isDigit b || text.contains ('"' : UInt8)

/-- An underscore goes before a capital after a small letter or a digit, and before the last
capital of a run that a small letter follows. `before` is the code point in front. -/
def humpsAfter (before : Nat) : List Nat → List Nat
  | [] => []
  | r :: rest =>
    let nextLower := rest.head?.any CaseMap.isLower
    let cut := CaseMap.isUpper r &&
      (CaseMap.isLower before || CaseMap.isDigit before || (CaseMap.isUpper before && nextLower))
    if cut then 95 :: r :: humpsAfter r rest else r :: humpsAfter r rest

/-- The words of a name written in humps, parted by underscores. -/
def splitHumps (text : Bytes) : Bytes :=
  match Utf8.runes text with
  | [] => []
  | r :: rest => Utf8.encodeAll (r :: humpsAfter r rest)

/-- The text in a style. -/
def apply (style : CaseStyle) (text : Bytes) : Bytes :=
  if isVerbatim text then text
  else match style with
    | .lower => CaseMap.lower text
    | .upper => CaseMap.upper text
    | .snake => CaseMap.lower (splitHumps text)
    | .preserve => text

end CaseStyle

/-- One style for each class of words, and the names that are constants wherever they appear, in
lower case. -/
structure Casing where
  keywords : CaseStyle := .preserve
  constants : CaseStyle := .preserve
  identifiers : CaseStyle := .preserve
  constantNames : List Bytes := []
  deriving DecidableEq, Inhabited

namespace Casing

/-- Makes a name a constant; letter case does not matter. -/
def addConstant (c : Casing) (name : Bytes) : Casing :=
  let lower := CaseMap.toLower name
  if c.constantNames.contains lower then c
  else { c with constantNames := lower :: c.constantNames }

/-- The name is a constant. -/
def isConstant (c : Casing) (name : Bytes) : Bool :=
  c.constantNames.contains (CaseMap.toLower name)

/-- A reserved word in its style. -/
def keyword (c : Casing) (text : Bytes) : Bytes := c.keywords.apply text

/-- A constant in its style. -/
def constant (c : Casing) (text : Bytes) : Bytes := c.constants.apply text

/-- An identifier in its style. -/
def identifier (c : Casing) (text : Bytes) : Bytes := c.identifiers.apply text

/-- A name in use: as a constant if it is one, else as an identifier. -/
def name (c : Casing) (text : Bytes) : Bytes :=
  if c.isConstant text then c.constant text else c.identifier text

end Casing

end VhdlStyle
