import VhdlStyle.Text.Bytes

/-! # Documents

A document is text with the places where lines may break. Layout decides for every group whether
it stays on its line. -/

namespace VhdlStyle

mutual

/-- A document. -/
inductive Doc where
  /-- Text as it is; a line feed inside breaks the enclosing groups. -/
  | text (s : Bytes)
  /-- A space, or a line break in a broken group. -/
  | line
  /-- Nothing, or a line break in a broken group. -/
  | softLine
  /-- A line break that breaks the enclosing groups. -/
  | hardLine
  /-- Nothing, but it breaks the enclosing groups. -/
  | breakParent
  /-- Line breaks inside are indented by further levels. -/
  | indent (levels : Int) (body : Doc)
  /-- Laid out on one line if it fits. -/
  | group (body : Doc)
  | concat (parts : List Doc)
  /-- Rows with a separator between them; a column with a width other than zero is padded. -/
  | table (rows : List TableRow) (widths : List Int) (sep : Doc)

/-- A row of a table: documents on lines of their own above it, cells parted by spaces, and what
follows the last cell directly. -/
inductive TableRow where
  | mk (leading cells : List Doc) (tail : Doc)

end

namespace TableRow

/-- The documents above the row. -/
def leading : TableRow → List Doc
  | .mk leading _ _ => leading

/-- The cells of the row. -/
def cells : TableRow → List Doc
  | .mk _ cells _ => cells

/-- What follows the last cell. -/
def tail : TableRow → Doc
  | .mk _ _ tail => tail

end TableRow

namespace Doc

/-- The document of nothing. -/
def empty : Doc := .concat []

instance : Inhabited Doc := ⟨empty⟩

instance : Inhabited TableRow := ⟨.mk [] [] empty⟩

/-- A single space that never breaks. -/
def space : Doc := .text [Bytes.space]

mutual

/-- The document shows nothing in any layout. -/
def isEmpty : Doc → Bool
  | .text s => s.isEmpty
  | .concat parts => allEmpty parts
  | .indent _ body => isEmpty body
  | .group body => isEmpty body
  | _ => false

/-- All documents show nothing. -/
def allEmpty : List Doc → Bool
  | [] => true
  | d :: rest => isEmpty d && allEmpty rest

end

/-! ## Composition -/

/-- The documents that are not empty with `sep` between them. -/
def join (sep : Doc) (parts : List Doc) : Doc :=
  .concat ((parts.filter fun d => !d.isEmpty).intersperse sep)

/-- Documents parted by spaces. -/
def words (parts : List Doc) : Doc := join space parts

/-- Documents on lines of their own. -/
def lines (parts : List Doc) : Doc := join .hardLine parts

/-- Words parted by spaces; empty ones vanish. -/
def texts (parts : List Bytes) : Doc := words (parts.map .text)

/-- `opening body closing` on one line, or the body indented on lines of its own. -/
def bracket (opening : Bytes) (body : Doc) (closing : Bytes) : Doc :=
  .group (.concat [.text opening, .indent 1 (.concat [.line, body]), .line, .text closing])

/-- As `bracket`, without the inner spaces. -/
def wrap (opening : Bytes) (body : Doc) (closing : Bytes) : Doc :=
  .group (.concat [.text opening, .indent 1 (.concat [.softLine, body]), .softLine,
    .text closing])

/-- The body indented by a level. -/
def nest (body : Doc) : Doc := .indent 1 body

end Doc

end VhdlStyle
