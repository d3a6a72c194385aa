import VhdlStyle.Token.Basic

/-! # Comments and blank lines of the design tree

Every node that has a line of its own is a row. A row owns the comments above it, the comment
after it on its line, and the blank line above it. -/

namespace VhdlStyle

/-- A comment as it was written, without trailing blanks. -/
structure Comment where
  text : Bytes
  blankBefore : Bool := false
  deriving DecidableEq, Inhabited

/-- What is bound to a row. `blankBefore` is a blank line between the leading comments and the
row; `inline` is empty when there is no comment behind the row. -/
structure RowTrivia where
  leading : List Comment := []
  blankBefore : Bool := false
  inline : Bytes := []
  deriving DecidableEq, Inhabited

namespace Comment

/-- A comment's text ends before trailing blanks and carriage returns. -/
def trim (text : Bytes) : Bytes :=
  Bytes.trimRight (fun b => b == Bytes.space || b == Bytes.tab || b == Bytes.cr) text

/-- The comments of trivia, `newlines` line feeds after the last thing before them, and whether a
blank line follows the last of them. -/
def ofTriviaFrom (newlines : Nat) : List Trivia → List Comment × Bool
  | [] => ([], 2 ≤ newlines)
  | t :: rest =>
    if t.kind == .newline then ofTriviaFrom (newlines + t.newlines) rest
    else if t.isComment then
      let (comments, blank) := ofTriviaFrom 0 rest
      (⟨trim t.text, 2 ≤ newlines⟩ :: comments, blank)
    else ofTriviaFrom newlines rest

/-- The comments in front of a token, and whether a blank line follows the last of them. -/
def ofTrivia (trivia : List Trivia) : List Comment × Bool := ofTriviaFrom 0 trivia

end Comment

end VhdlStyle
