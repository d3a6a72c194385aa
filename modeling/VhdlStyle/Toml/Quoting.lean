import VhdlStyle.Toml.Scalar
import VhdlStyle.Text.Utf8

/-! # Texts in TOML

Texts stand in double or single quotes, on one line or, in triple quotes, over several. Only double
quotes know escapes. -/

namespace VhdlStyle.Toml

/-- The double quote. -/
def doubleQuote : UInt8 := 34

/-- The single quote. -/
def singleQuote : UInt8 := 39

/-- The backslash. -/
def backslash : UInt8 := 92

/-- The bytes that end a line. -/
def isNewline (b : UInt8) : Bool := b == Bytes.lf || b == Bytes.cr

/-- The blanks inside a line. -/
def isBlankByte (b : UInt8) : Bool := b == Bytes.space || b == Bytes.tab

/-- The bytes that may follow a backslash, code points apart. -/
def isEscapeMark (b : UInt8) : Bool :=
  [('b' : UInt8), 't', 'n', 'f', 'r'].contains b || b == doubleQuote || b == backslash ||
    isBlankByte b

/-- The byte `e` after a backslash and what follows it make an escape. -/
def isEscape (e : UInt8) (rest : Bytes) : Bool :=
  let hasHex (n : Nat) : Bool := n ≤ rest.length && (rest.take n).all isHexByte
  if e == ('u' : UInt8) then hasHex 4
  else if e == ('U' : UInt8) then hasHex 8
  else isEscapeMark e

/-- The raw text up to the closing quote of a line; an escaped byte never closes. -/
def readLine? (quote : UInt8) (escapes : Bool) : Bytes → Option (Bytes × Bytes)
  | [] => none
  | b :: rest =>
    if isNewline b then none
    else if b == quote then some ([], rest)
    else if escapes && b == backslash then
      match rest with
      | [] => none
      | e :: rest =>
        if isEscape e rest then
          (readLine? quote escapes rest).map fun (raw, rest) => (b :: e :: raw, rest)
        else none
    else (readLine? quote escapes rest).map fun (raw, rest) => (b :: raw, rest)

/-- Six quotes in a row are one too many: `seen`, latest first, ends in two, unless the first of
them is escaped. -/
def tooMany (quote : UInt8) (escapes : Bool) (seen : Bytes) : Bool :=
  [quote, quote].isPrefixOf seen && !(escapes && [quote, quote, backslash].isPrefixOf seen)

/-- The raw text up to three closing quotes, of which one or two more may come before them. -/
def readLines? (quote : UInt8) (escapes : Bool) (seen : Bytes) : Bytes → Option (Bytes × Bytes)
  | [] => none
  | b :: rest =>
    if b == quote && [quote, quote].isPrefixOf rest then
      if (rest.drop 2).head? == some quote then
        if tooMany quote escapes seen then none
        else readLines? quote escapes (b :: seen) rest
      else some (seen.reverse, rest.drop 2)
    else if escapes && b == backslash then
      match rest with
      | [] => none
      | e :: rest =>
        if isNewline e || isEscape e rest then readLines? quote escapes (e :: b :: seen) rest
        else none
    else readLines? quote escapes (b :: seen) rest

/-- A text without the line end it may start with. -/
def dropFirstNewline (text : Bytes) : Bytes :=
  match text with
  | Bytes.lf :: rest => rest
  | Bytes.cr :: Bytes.lf :: rest => rest
  | _ => text

/-- The bytes that a backslash at the end of a line swallows. -/
def isSwallowed (b : UInt8) : Bool := isBlankByte b || isNewline b

/-- Drops each backslash that ends a line, with all blanks and line ends after it; `skip` bytes are
still to be dropped. -/
def joinLines : Nat → Bytes → Bytes
  | _, [] => []
  | skip + 1, _ :: rest => joinLines skip rest
  | 0, b :: rest =>
    if b != backslash then b :: joinLines 0 rest
    else
      let blanks := rest.takeWhile isSwallowed
      if blanks.contains Bytes.lf then joinLines blanks.length rest
      else if rest.head? == some backslash then b :: backslash :: joinLines 1 rest
      else b :: joinLines 0 rest

/-- The character an escape of four or eight digits stands for. -/
def codePoint? (digits : Nat) (text : Bytes) : Option Bytes :=
  let hex := text.take digits
  let n := ofDigits 16 hex
  if hex.length < digits || !hex.all isHexByte then none
  else if n < 0xD800 || (0xE000 ≤ n && n ≤ 0x10FFFF) then some (Utf8.encode n) else none

/-- The byte a one-letter escape stands for. -/
def escapedByte? (e : UInt8) : Option UInt8 :=
  if e == ('b' : UInt8) then some 8
  else if e == ('t' : UInt8) then some 9
  else if e == ('n' : UInt8) then some 10
  else if e == ('f' : UInt8) then some 12
  else if e == ('r' : UInt8) then some 13
  else if e == doubleQuote || e == backslash then some e
  else none

/-- Replaces escapes by what they stand for; `skip` bytes belong to the escape before. -/
def unescape? : Nat → Bytes → Option Bytes
  | _, [] => some []
  | skip + 1, _ :: rest => unescape? skip rest
  | 0, b :: rest =>
    if b != backslash then (unescape? 0 rest).map (b :: ·)
    else match rest with
      | [] => none
      | e :: after =>
        if e == ('u' : UInt8) then do
          return (← codePoint? 4 after) ++ (← unescape? 5 rest)
        else if e == ('U' : UInt8) then do
          return (← codePoint? 8 after) ++ (← unescape? 9 rest)
        else do
          return (← escapedByte? e) :: (← unescape? 1 rest)

/-- Reads a text on one line, its opening quote included. -/
def readText? (text : Bytes) : Option (Bytes × Bytes) :=
  match text with
  | [] => none
  | b :: rest =>
    if b == doubleQuote then do
      let (raw, rest) ← readLine? doubleQuote true rest
      return (← unescape? 0 raw, rest)
    else if b == singleQuote then readLine? singleQuote false rest
    else none

/-- Reads a text on one line or, after triple quotes, over several. -/
def readAnyText? (text : Bytes) : Option (Bytes × Bytes) :=
  if (List.replicate 3 doubleQuote).isPrefixOf text then do
    let (raw, rest) ← readLines? doubleQuote true [] (text.drop 3)
    return (← unescape? 0 (joinLines 0 (dropFirstNewline raw)), rest)
  else if (List.replicate 3 singleQuote).isPrefixOf text then do
    let (raw, rest) ← readLines? singleQuote false [] (text.drop 3)
    return (dropFirstNewline raw, rest)
  else readText? text

end VhdlStyle.Toml
