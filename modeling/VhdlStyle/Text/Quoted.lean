import VhdlStyle.Text.Utf8
import VhdlStyle.Text.Printable

/-! # Quoted texts

A text between double quotes in which every character is visible: quotes and backslashes are
escaped, control characters use letter or hexadecimal escapes, other unprintable characters their
code point, and malformed bytes their value. -/

namespace VhdlStyle.Quoted

/-- `n` as `width` lower-case hexadecimal digits. -/
def hex (width n : Nat) : Bytes :=
  Bytes.padLeft width '0' ((Nat.toDigits 16 n).map Char.toUInt8)

/-- The escape of a character that is not printable. -/
def escape (r : Nat) : Bytes :=
  match r with
  | 7 => "\\a"
  | 8 => "\\b"
  | 9 => "\\t"
  | 10 => "\\n"
  | 11 => "\\v"
  | 12 => "\\f"
  | 13 => "\\r"
  | _ =>
    if r < 0x20 || r == 0x7F then "\\x" ++ hex 2 r
    else if r < 0x10000 then "\\u" ++ hex 4 r
    else "\\U" ++ hex 8 r

/-- One character inside the quotes. -/
def glyph (g : Utf8.Glyph) : Bytes :=
  if !g.wellFormed then "\\x" ++ Bytes.toHex g.bytes
  else if g.rune == 34 || g.rune == 92 then '\\' :: g.bytes
  else if Printable.isPrintable g.rune then g.bytes
  else escape g.rune

/-- The text in double quotes. -/
def quote (text : Bytes) : Bytes :=
  List.flatten ["\"", (Utf8.glyphs text).flatMap glyph, "\""]

end VhdlStyle.Quoted
