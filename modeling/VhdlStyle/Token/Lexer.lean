import VhdlStyle.Diagnostic.Bag
import VhdlStyle.Token.Basic
import VhdlStyle.Token.Lexeme

/-! # Lexing

Reading a source as tokens. A `Lexer` is a place in the source together with the kind of the last
token, which decides what a quote means, and a token already looked at. -/

namespace VhdlStyle

/-! ## Trivia -/

/-- A piece of trivia found at the front of a text. -/
structure TriviaPiece where
  kind : TriviaKind
  more : Nat
  closed : Bool := true
  deriving DecidableEq

namespace TriviaPiece

/-- The blanks: space, tab, form feed, lone carriage return and vertical tab. -/
def isBlank (b : UInt8) : Bool :=
  b == Bytes.space || b == Bytes.tab || b == 12 || b == Bytes.cr || b == 11

/-- The bytes after the opening of a block comment up to and including its end, and whether it
has one. -/
def blockBody : Bytes → Nat × Bool
  | [] => (0, false)
  | b :: rest =>
    if b == '*' && rest.head? == some ('/' : UInt8) then (2, true)
    else
      let (n, closed) := blockBody rest
      (n + 1, closed)

/-- The trivia that starts with `first`, if any does. -/
def scan? (first : UInt8) (rest : Bytes) : Option TriviaPiece :=
  if isBlank first then some ⟨.space, Lexeme.countWhile isBlank rest, true⟩
  else if first == Bytes.lf then some ⟨.newline, Lexeme.countWhile (· == Bytes.lf) rest, true⟩
  else if first == '-' && rest.head? == some ('-' : UInt8) then
    some ⟨.lineComment, Lexeme.countWhile (· != Bytes.lf) rest, true⟩
  else if first == '/' && rest.head? == some ('*' : UInt8) then
    let (n, closed) := blockBody (rest.drop 1)
    some ⟨.blockComment, n + 1, closed⟩
  else none

end TriviaPiece

/-! ## Tokens of a source -/

/-- A place in a source. -/
structure Lexer where
  file : UInt32
  offset : Nat := 0
  rest : Bytes
  previous : Kind := .invalid
  look : Option Token := none
  deriving Inhabited

namespace Lexer

/-- The start of a file. -/
def ofFile (f : SourceFile) : Lexer := { file := f.id, rest := f.content }

/-- The span of the next `n` bytes. -/
def spanOf (lx : Lexer) (n : Nat) : Span :=
  ⟨lx.file, UInt32.ofNat lx.offset, UInt32.ofNat (lx.offset + n)⟩

/-- The place `n` bytes further on. -/
def skip (lx : Lexer) (n : Nat) : Lexer :=
  { lx with offset := lx.offset + n, rest := lx.rest.drop n }

/-- The trivia at this place, the faults in it and the place after it. -/
def triviaN : Nat → Lexer → List Trivia × List Diagnostic × Lexer
  | 0, lx => ([], [], lx)
  | fuel + 1, lx =>
    match lx.rest with
    | [] => ([], [], lx)
    | first :: rest =>
      match TriviaPiece.scan? first rest with
      | none => ([], [], lx)
      | some piece =>
        let n := piece.more + 1
        let span := lx.spanOf n
        let (trivia, faults, after) := triviaN fuel (lx.skip n)
        let fault := if piece.closed then []
          else [.ofError .unterminatedBlockComment span "unterminated block comment"]
        (⟨piece.kind, span, lx.rest.take n⟩ :: trivia, fault ++ faults, after)

/-- All trivia at this place. -/
def trivia (lx : Lexer) : List Trivia × List Diagnostic × Lexer := triviaN lx.rest.length lx

/-- The token at this place, without regard to one looked at before. -/
def scanToken (lx : Lexer) : Token × List Diagnostic × Lexer :=
  let (leading, faults, lx) := lx.trivia
  match lx.rest with
  | [] => (⟨.eof, lx.spanOf 0, [], leading⟩, faults, { lx with previous := .eof })
  | first :: rest =>
    let lexeme := Lexeme.scan lx.previous first rest
    let n := lexeme.more + 1
    let span := lx.spanOf n
    let fault := match lexeme.fault with
      | none => []
      | some (code, message) => [.ofError code span message]
    (⟨lexeme.kind, span, lx.rest.take n, leading⟩, faults ++ fault,
      { lx.skip n with previous := lexeme.kind })

/-- The next token. At the end of the source it is the end token, again and again. -/
def next (lx : Lexer) : Token × List Diagnostic × Lexer :=
  match lx.look with
  | some token => (token, [], { lx with look := none })
  | none => lx.scanToken

/-- The next token, which stays the next one. -/
def peek (lx : Lexer) : Token × List Diagnostic × Lexer :=
  match lx.look with
  | some token => (token, [], lx)
  | none =>
    let (token, faults, lx) := lx.scanToken
    (token, faults, { lx with look := some token })

/-- The tokens up to the end token. -/
def allN : Nat → Lexer → List Token × List Diagnostic × Lexer
  | 0, lx => ([], [], lx)
  | fuel + 1, lx =>
    let (token, faults, lx) := lx.next
    if token.kind == .eof then ([token], faults, lx)
    else
      let (tokens, faults', lx) := allN fuel lx
      (token :: tokens, faults ++ faults', lx)

/-- All tokens from here on; the last one is the end token. Each other token takes a byte, but
for one that was looked at. -/
def all (lx : Lexer) : List Token × List Diagnostic × Lexer := allN (lx.rest.length + 2) lx

end Lexer

/-- The tokens of a file and what is wrong with them. -/
def SourceFile.tokens (f : SourceFile) : List Token × List Diagnostic :=
  let (tokens, faults, _) := (Lexer.ofFile f).all
  (tokens, faults)

end VhdlStyle
