import VhdlStyle.Doc.Basic
import VhdlStyle.Design.Comment

/-! # Blocks of lines

A block collects documents that stand on lines of their own. It never starts or ends with a blank
line and never has two of them in a row. -/

namespace VhdlStyle

/-- The lines of a block, last one first; `none` is a blank line. -/
structure Block where
  lines : List (Option Doc) := []
  deriving Inhabited

namespace Block

/-- Adds a line. -/
def add (b : Block) (d : Doc) : Block := ⟨some d :: b.lines⟩

/-- Adds a blank line unless the block is empty or ends with one. -/
def blank (b : Block) : Block :=
  match b.lines with
  | [] => b
  | none :: _ => b
  | some _ :: _ => ⟨none :: b.lines⟩

/-- Adds comments, with the blank lines above them. -/
def comments (b : Block) (cs : List Comment) : Block :=
  cs.foldl (fun b c => (if c.blankBefore then b.blank else b).add (.text c.text)) b

/-- Adds the comments and blank lines above a row. -/
def leading (b : Block) (t : RowTrivia) : Block :=
  let b := b.comments t.leading
  if t.blankBefore then b.blank else b

end Block

namespace Doc

/-- A comment behind a row; the line has to end after it. -/
def inline (comment : Bytes) : Doc :=
  if comment.isEmpty then .empty else .concat [.breakParent, .space, .text comment]

/-- The lines above a table row. Unless `top`, a blank line above all of them is left out. -/
def leadingLines (t : RowTrivia) (top : Bool) : List Doc :=
  let lineOf (first : Bool) (c : Comment) : List Doc :=
    if c.blankBefore && (top || !first) then [.empty, .text c.text] else [.text c.text]
  let comments := match t.leading with
    | [] => []
    | c :: rest => lineOf true c ++ rest.flatMap (lineOf false)
  comments ++ if t.blankBefore && (top || !t.leading.isEmpty) then [.empty] else []

/-- What follows the last cell of a row of a list: the separator, unless it is the last row, and
the comment. -/
def rowTail (t : RowTrivia) (last : Bool) (sep : Bytes) : Doc :=
  .concat [if last then .empty else .text sep, inline t.inline]

end Doc

namespace Block

/-- Adds a row with its trivia. -/
def row (b : Block) (t : RowTrivia) (body : Doc) : Block :=
  (b.leading t).add (.concat [body, Doc.inline t.inline])

/-- The lines one after the other. -/
def doc (b : Block) : Doc :=
  let lines := (b.lines.dropWhile Option.isNone).reverse
  .concat ((lines.map fun line => line.getD .empty).intersperse .hardLine)

/-- The lines indented by a level, the first on a new line; nothing for an empty block. -/
def nest (b : Block) : Doc :=
  if b.lines.isEmpty then .empty else .indent 1 (.concat [.hardLine, b.doc])

end Block

/-- Comments on lines of their own. -/
def Doc.commentLines (cs : List Comment) : Doc := (Block.comments {} cs).doc

/-- The trivia holds a blank line. -/
def RowTrivia.hasBlank (t : RowTrivia) : Bool := t.blankBefore || t.leading.any (·.blankBefore)

end VhdlStyle
