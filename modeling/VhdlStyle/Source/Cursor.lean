import VhdlStyle.Source.File

/-! # Byte cursors

A cursor is an offset into a file. Offsets are 32-bit words: sums wrap around, and every read and
move is checked against the end of the file. -/

namespace VhdlStyle

/-- A place in a content of `limit` bytes. -/
structure Cursor where
  file : UInt32
  content : Bytes
  offset : UInt32 := 0
  deriving Inhabited

namespace Cursor

/-- The start of a file. -/
def ofFile (f : SourceFile) : Cursor := { file := f.id, content := f.content }

/-- The offset just past the last byte. -/
def limit (c : Cursor) : UInt32 := UInt32.ofNat c.content.length

/-- Nothing is left to read. -/
def atEnd (c : Cursor) : Bool := c.limit ≤ c.offset

/-- The byte `n` places ahead, zero past the end. -/
def peekAt (c : Cursor) (n : UInt32) : UInt8 :=
  if c.limit ≤ c.offset + n then 0 else c.content.getD (c.offset + n).toNat 0

/-- The current byte, zero at the end. -/
def peek (c : Cursor) : UInt8 := c.peekAt 0

/-- Reads one byte, zero at the end. -/
def bump (c : Cursor) : UInt8 × Cursor :=
  if c.atEnd then (0, c) else (c.content.getD c.offset.toNat 0, { c with offset := c.offset + 1 })

/-- Moves ahead by `n` bytes, but not past the end. -/
def skip (c : Cursor) (n : UInt32) : Cursor := { c with offset := min (c.offset + n) c.limit }

/-- Reads the current byte if it is `b`. -/
def eat (c : Cursor) (b : UInt8) : Bool × Cursor :=
  if c.peek == b && !c.atEnd then (true, { c with offset := c.offset + 1 }) else (false, c)

/-- The content goes on with `text`. Where the end of a very long text wraps around to a place in
front of the cursor, there is no stretch of the content to compare: the program panics there, while
the answer here is no. `Cursor.ComparesInside` tells these texts from the others. -/
def matches? (c : Cursor) (text : Bytes) : Bool :=
  let stop := c.offset + UInt32.ofNat text.length
  !(c.limit < stop) && (Span.slice? ⟨c.file, c.offset, stop⟩ c.content) == some text

/-- Reads `text` if the content goes on with it. -/
def eatText (c : Cursor) (text : Bytes) : Bool × Cursor :=
  if c.matches? text then (true, { c with offset := c.offset + UInt32.ofNat text.length })
  else (false, c)

/-- Reads bytes while `p` holds; the result says how many. -/
def eatWhile (c : Cursor) (p : UInt8 → Bool) : Nat × Cursor :=
  let n := ((c.content.drop c.offset.toNat).takeWhile p).length
  (n, { c with offset := c.offset + UInt32.ofNat n })

/-- The span from a saved offset to the current one. -/
def spanFrom (c : Cursor) (mark : UInt32) : Span := ⟨c.file, mark, c.offset⟩

/-- Goes back to a saved offset. -/
def reset (c : Cursor) (mark : UInt32) : Cursor := { c with offset := mark }

end Cursor

end VhdlStyle
