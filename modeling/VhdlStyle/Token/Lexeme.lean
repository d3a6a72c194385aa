import VhdlStyle.Token.Kind
import VhdlStyle.Diagnostic.Code

/-! # Lexemes

The lexical rules, apart from positions: given the bytes from some point on, what kind of token
starts there and how many bytes it takes. Every rule takes the first byte, so a scan always moves
forward. Only ASCII bytes decide; other bytes are copied inside comments, strings and extended
identifiers. -/

namespace VhdlStyle

/-- A token found at the front of a text: its kind, the bytes it takes after the first one, and
what is wrong with it. -/
structure Lexeme where
  kind : Kind
  more : Nat
  fault : Option (Code × Bytes) := none
  deriving DecidableEq, Inhabited

namespace Lexeme

/-- A byte that continues a basic identifier. -/
def isIdentByte (b : UInt8) : Bool := Bytes.isLetter b || Bytes.isDigit b || b == '_'

/-- A digit of a based literal. -/
def isBasedDigit (b : UInt8) : Bool :=
  Bytes.isDigit b || ('a' ≤ b && b ≤ 'f') || ('A' ≤ b && b ≤ 'F')

/-- How many bytes at the front satisfy `p`. -/
def countWhile (p : UInt8 → Bool) (text : Bytes) : Nat := (text.takeWhile p).length

/-- How many digits and underscores stand at the front. -/
def digits (isDigit : UInt8 → Bool) (text : Bytes) : Nat :=
  countWhile (fun b => isDigit b || b == '_') text

/-! ## Quoted literals -/

/-- How the body of a quoted literal ends. -/
inductive QuotedEnd where
  | closed
  | newline
  | missing
  deriving DecidableEq, Inhabited

/-- The bytes after an opening quote up to and including the closing one; a doubled quote stands
for itself, and a literal never spans lines. -/
def quotedBody : Bytes → Nat × QuotedEnd
  | [] => (0, .missing)
  | b :: rest =>
    if b == '"' then
      match rest with
      | [] => (1, .closed)
      | b' :: rest' =>
        if b' == '"' then
          let (n, stop) := quotedBody rest'
          (n + 2, stop)
        else (1, .closed)
    else if b == Bytes.lf then (0, .newline)
    else
      let (n, stop) := quotedBody rest
      (n + 1, stop)

/-- A quoted literal whose opening quote comes after `before` further bytes of the token. -/
def quoted (kind : Kind) (code : Code) (what : Bytes) (before : Nat) (body : Bytes) : Lexeme :=
  match quotedBody body with
  | (n, .closed) => ⟨kind, before + n, none⟩
  | (n, .newline) => ⟨.invalid, before + n, some (code, "newline in " ++ what)⟩
  | (n, .missing) => ⟨.invalid, before + n, some (code, "unterminated " ++ what)⟩

/-- A string literal. -/
def string (rest : Bytes) : Lexeme :=
  quoted .stringLit .unterminatedString "string literal" 0 rest

/-- A bit string literal after its length and base. -/
def bitString (before : Nat) (body : Bytes) : Lexeme :=
  quoted .bitStringLit .badBitString "bit string literal" before body

/-- The bases of bit strings. -/
def isBitStringBase (text : Bytes) : Bool :=
  let bases : List Bytes := ["b", "o", "x", "d", "ub", "uo", "ux", "sb", "so", "sx"]
  bases.contains (CaseMap.toLower text)

/-! ## Identifiers -/

/-- An identifier, a reserved word, or a bit string when a base runs into a quote. -/
def word (first : UInt8) (rest : Bytes) : Lexeme :=
  let n := countWhile isIdentByte rest
  let text := first :: rest.take n
  match rest.drop n with
  | b :: body =>
    if b == '"' && isBitStringBase text then bitString (n + 1) body
    else ⟨(Kind.ofKeyword? text).getD .ident, n, none⟩
  | [] => ⟨(Kind.ofKeyword? text).getD .ident, n, none⟩

/-- The bytes after an opening backslash up to and including the closing one, and whether there
is one on the line; a doubled backslash stands for itself. -/
def extendedBody : Bytes → Nat × Bool
  | [] => (0, false)
  | b :: rest =>
    if b == Bytes.lf then (0, false)
    else if b == '\\' then
      match rest with
      | [] => (1, true)
      | b' :: rest' =>
        if b' == '\\' then
          let (n, closed) := extendedBody rest'
          (n + 2, closed)
        else (1, true)
    else
      let (n, closed) := extendedBody rest
      (n + 1, closed)

/-- An extended identifier. -/
def extended (rest : Bytes) : Lexeme :=
  match extendedBody rest with
  | (n, true) => ⟨.extIdent, n, none⟩
  | (n, false) =>
    ⟨.invalid, n, some (.unterminatedExtIdent, "unterminated extended identifier")⟩

/-! ## Numbers -/

/-- The length of an exponent at the front, zero if there is none. -/
def exponent : Bytes → Nat
  | [] => 0
  | e :: rest =>
    if e == 'e' || e == 'E' then
      match rest with
      | [] => 0
      | b :: rest' =>
        if Bytes.isDigit b then 1 + digits Bytes.isDigit rest
        else if (b == '+' || b == '-') && (rest'.head?.any Bytes.isDigit) then
          2 + digits Bytes.isDigit rest'
        else 0
    else 0

/-- A based literal: `n` bytes lie before the bytes `body` that follow the first `#`. -/
def based (n : Nat) (body : Bytes) : Lexeme :=
  let whole := digits isBasedDigit body
  let fraction := match body.drop whole with
    | b :: rest => if b == '.' then 1 + digits isBasedDigit rest else 0
    | [] => 0
  let upTo := whole + fraction
  match body.drop upTo with
  | b :: rest =>
    if b == '#' then ⟨.basedLit, n + upTo + 1 + exponent rest, none⟩
    else ⟨.invalid, n + upTo, some (.badNumber, "based literal is missing closing '#'")⟩
  | [] => ⟨.invalid, n + upTo, some (.badNumber, "based literal is missing closing '#'")⟩

/-- A decimal literal, a based literal, or a bit string with a length. -/
def number (rest : Bytes) : Lexeme :=
  let n := digits Bytes.isDigit rest
  match rest.drop n with
  | [] => ⟨.decimalLit, n, none⟩
  | b :: after =>
    if b == '#' then based (n + 1) after
    else if b == '.' && after.head?.any Bytes.isDigit then
      let m := n + 1 + digits Bytes.isDigit after
      ⟨.decimalLit, m + exponent (rest.drop m), none⟩
    else
      let letters := countWhile Bytes.isLetter (b :: after)
      match (b :: after).drop letters with
      | q :: body =>
        if q == '"' && isBitStringBase ((b :: after).take letters) then
          bitString (n + letters + 1) body
        else ⟨.decimalLit, n + exponent (b :: after), none⟩
      | [] => ⟨.decimalLit, n + exponent (b :: after), none⟩

/-! ## Characters and delimiters -/

/-- After a name, a closing bracket or a string a quote is the attribute tick; elsewhere it opens
a character literal if another quote closes it. -/
def opensCharacter (previous : Kind) (rest : Bytes) : Bool :=
  match previous with
  | .ident | .extIdent | .rParen | .rBracket | .kwAll | .stringLit => false
  | _ => rest[1]? == some ('\'' : UInt8)

/-- The delimiters, longer ones first. -/
def delimiters : List (String × Kind) :=
  [("?/=", .matchNotEq), ("?<=", .matchLtEq), ("?>=", .matchGtEq),
   ("=>", .arrow), ("**", .starStar), (":=", .varAssign), ("/=", .notEq), (">=", .gtEq),
   ("<=", .ltEq), ("<>", .box), ("??", .cond), ("?=", .matchEq), ("?<", .matchLt),
   ("?>", .matchGt), ("<<", .doubleLt), (">>", .doubleGt),
   ("&", .amp), ("'", .tick), ("(", .lParen), (")", .rParen), ("*", .star), ("+", .plus),
   (",", .comma), ("-", .minus), (".", .dot), ("/", .slash), (":", .colon), (";", .semicolon),
   ("<", .lt), ("=", .eq), (">", .gt), ("|", .bar), ("!", .bar), ("[", .lBracket),
   ("]", .rBracket), ("?", .question), ("@", .at), ("^", .caret)]

/-- A delimiter; any other byte is invalid together with the continuation bytes after it. -/
def delimiter (first : UInt8) (rest : Bytes) : Lexeme :=
  match delimiters.find? fun entry => (Bytes.ofString entry.1).isPrefixOf (first :: rest) with
  | some (text, kind) => ⟨kind, text.length - 1, none⟩
  | none =>
    let n := countWhile Utf8.isContinuation rest
    ⟨.invalid, n, some (.unknownChar,
      List.flatten ["unknown character '", first :: rest.take n, "'"])⟩

/-- The token that starts with `first`, after a token of kind `previous`. -/
def scan (previous : Kind) (first : UInt8) (rest : Bytes) : Lexeme :=
  if Bytes.isLetter first then word first rest
  else if first == '\\' then extended rest
  else if Bytes.isDigit first then number rest
  else if first == '"' then string rest
  else if first == '\'' && opensCharacter previous rest then ⟨.charLit, 2, none⟩
  else delimiter first rest

end Lexeme

end VhdlStyle
