import VhdlStyle.Token.Lexer
import VhdlStyle.Text.Quoted

/-! # Listing the tokens of a file -/

namespace VhdlStyle.SourceFile

/-- One line for a token: position, kind, quoted text and the number of pieces before it. -/
def tokenLine (f : SourceFile) (t : Token) : Bytes :=
  let start := f.lineCol t.span.start
  List.flatten [Bytes.ofNat start.line.toNat, ":", Bytes.ofNat start.col.toNat, "\t", t.kind.name,
    "\t", Quoted.quote t.text,
    if t.leading.isEmpty then [] else Bytes.ofString "\ttrivia=" ++ Bytes.ofNat t.leading.length,
    "\n"]

/-- All tokens, one a line. -/
def tokenListing (f : SourceFile) : Bytes := f.tokens.1.flatMap f.tokenLine

end VhdlStyle.SourceFile
