import VhdlStyle.Text.Utf8
import VhdlStyle.Text.CaseTables

/-! # Letter case

Three views of case: the one-to-one lower case used to look words up, folding used to compare
names, and the full mappings of running text, where one character may become several and the
Greek sigma has a form of its own at the end of a word. -/

namespace VhdlStyle.CaseMap

/-- A code point sent through the rows of a mapping table. -/
def mapRows (rows : List (Nat × Nat × Nat × Nat)) (r : Nat) : Nat :=
  match rows.find? fun (lo, hi, step, _) => lo ≤ r && r ≤ hi && (r - lo) % step == 0 with
  | some (lo, _, _, target) => target + (r - lo)
  | none => r

/-- A code point stands in a set table. -/
def inRows (rows : List (Nat × Nat × Nat)) (r : Nat) : Bool :=
  rows.any fun (lo, hi, step) => lo ≤ r && r ≤ hi && (r - lo) % step == 0

/-- The one-to-one lower case of a code point. -/
def lowerRune (r : Nat) : Nat :=
  if r < 0x80 then (if 65 ≤ r && r ≤ 90 then r + 32 else r) else mapRows CaseTables.lowerRows r

/-- The one-to-one upper case of a code point. -/
def upperRune (r : Nat) : Nat :=
  if r < 0x80 then (if 97 ≤ r && r ≤ 122 then r - 32 else r) else mapRows CaseTables.upperRows r

/-- The representative of all code points that differ from `r` by case alone. -/
def foldRune (r : Nat) : Nat :=
  if r < 0x80 then (if 65 ≤ r && r ≤ 90 then r + 32 else r) else mapRows CaseTables.foldRows r

/-- A capital letter. -/
def isUpper (r : Nat) : Bool :=
  if r < 0x80 then 65 ≤ r && r ≤ 90 else inRows CaseTables.capitals r

/-- A small letter. -/
def isLower (r : Nat) : Bool :=
  if r < 0x80 then 97 ≤ r && r ≤ 122 else inRows CaseTables.smalls r

/-- A decimal digit. -/
def isDigit (r : Nat) : Bool :=
  if r < 0x80 then 48 ≤ r && r ≤ 57 else inRows CaseTables.digits r

/-- A character that has a case. -/
def isCased (r : Nat) : Bool :=
  if r < 0x80 then (65 ≤ r && r ≤ 90) || (97 ≤ r && r ≤ 122) else inRows CaseTables.cased r

/-- A character that does not interrupt a cased word. -/
def isIgnorable (r : Nat) : Bool :=
  if r < 0x80 then [39, 46, 58, 94, 96].contains r else inRows CaseTables.ignorable r

/-! ## Words -/

/-- The text in one-to-one lower case; malformed bytes become the replacement character. -/
def toLower (text : Bytes) : Bytes := Utf8.encodeAll ((Utf8.runes text).map lowerRune)

/-- The texts differ at most in letter case. -/
def equalFold (a b : Bytes) : Bool := (Utf8.runes a).map foldRune == (Utf8.runes b).map foldRune

/-! ## Running text -/

/-- The full lower case of one character; malformed bytes stay. -/
def lowerGlyph (g : Utf8.Glyph) : Bytes :=
  if !g.wellFormed then g.bytes
  else match CaseTables.lowerSequences.lookup g.rune with
    | some runes => Utf8.encodeAll runes
    | none => Utf8.encode (lowerRune g.rune)

/-- The full upper case of one character; malformed bytes stay. -/
def upperGlyph (g : Utf8.Glyph) : Bytes :=
  if !g.wellFormed then g.bytes
  else match CaseTables.upperSequences.lookup g.rune with
    | some runes => Utf8.encodeAll runes
    | none => Utf8.encode (upperRune g.rune)

/-- The capital sigma. -/
def capitalSigma : Nat := 0x3A3

/-- How many ignorable characters after a sigma are looked through. -/
def sigmaReach : Nat := 31

/-- A cased character follows, after at most `reach` characters that are looked through. -/
def casedFollows : Nat → List Utf8.Glyph → Bool
  | 0, _ => false
  | _, [] => false
  | reach + 1, g :: rest =>
    if g.wellFormed && isIgnorable g.rune then casedFollows reach rest
    else g.wellFormed && isCased g.rune

/-- The state of lower-casing running text: between words, inside one, or `verbatim n` when the
next `n` characters were looked through after a sigma and are copied. -/
inductive WordState where
  | between
  | inside
  | verbatim (n : Nat)
  deriving DecidableEq

/-- How many characters a sigma looks through. -/
def sigmaSpan (rest : List Utf8.Glyph) : Nat :=
  ((rest.take sigmaReach).takeWhile fun g => g.wellFormed && isIgnorable g.rune).length

/-- Lower case of running text. A capital sigma inside a word becomes the final sigma unless a
cased character follows. -/
def lowerText : WordState → List Utf8.Glyph → Bytes
  | _, [] => []
  | .verbatim (n + 1), g :: rest =>
    g.bytes ++ lowerText (if n == 0 then .inside else .verbatim n) rest
  | .between, g :: rest =>
    if g.wellFormed && isCased g.rune then lowerGlyph g ++ lowerText .inside rest
    else g.bytes ++ lowerText .between rest
  | _, g :: rest =>
    if !(g.wellFormed && (isCased g.rune || isIgnorable g.rune)) then
      g.bytes ++ lowerText .between rest
    else if g.rune != capitalSigma then lowerGlyph g ++ lowerText .inside rest
    else
      let n := sigmaSpan rest
      Utf8.encode (if casedFollows sigmaReach rest then 0x3C3 else 0x3C2) ++
        lowerText (if n == 0 then .inside else .verbatim n) rest

/-- The full lower case of a text. -/
def lower (text : Bytes) : Bytes := lowerText .between (Utf8.glyphs text)

/-- The full upper case of a text. -/
def upper (text : Bytes) : Bytes := (Utf8.glyphs text).flatMap upperGlyph

end VhdlStyle.CaseMap
