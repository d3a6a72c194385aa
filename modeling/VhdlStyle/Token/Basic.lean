import VhdlStyle.Source.Span
import VhdlStyle.Token.Kind

/-! # Tokens

A token is the exact slice of the source under its span. White space and comments are no tokens:
they travel as the leading trivia of the next one. -/

namespace VhdlStyle

/-- What stands between two tokens. -/
inductive TriviaKind where
  | space
  | newline
  | lineComment
  | blockComment
  deriving DecidableEq, Inhabited

/-- A run of blanks, a run of line feeds, or one comment. -/
structure Trivia where
  kind : TriviaKind
  span : Span
  text : Bytes
  deriving DecidableEq, Inhabited

namespace Trivia

/-- The trivia is a line or block comment. -/
def isComment (t : Trivia) : Bool := t.kind == .lineComment || t.kind == .blockComment

/-- How many line feeds the trivia carries; the one that ends a line comment is not part of it. -/
def newlines (t : Trivia) : Nat :=
  match t.kind with
  | .newline => t.text.length
  | .blockComment => t.text.count Bytes.lf
  | _ => 0

end Trivia

/-- A token with the trivia in front of it. -/
structure Token where
  kind : Kind
  span : Span
  text : Bytes
  leading : List Trivia := []
  deriving DecidableEq, Inhabited

namespace Token

/-- Numeric, character, string and bit string literals. -/
def isLiteral (t : Token) : Bool := t.kind.isLiteral

/-- Reserved words. -/
def isKeyword (t : Token) : Bool := t.kind.isKeyword

/-- Basic and extended identifiers. -/
def isIdent (t : Token) : Bool := t.kind.isIdent

/-- The token's kind is among `kinds`. -/
def isAny (t : Token) (kinds : List Kind) : Bool := kinds.contains t.kind

/-- The source bytes a token accounts for: its trivia, then its own text. -/
def fullText (t : Token) : Bytes := (t.leading.flatMap Trivia.text) ++ t.text

end Token

end VhdlStyle
