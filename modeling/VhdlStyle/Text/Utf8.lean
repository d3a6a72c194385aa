import VhdlStyle.Text.Bytes

/-! # Characters in byte texts

Decoding never fails: a byte that does not start a well-formed UTF-8 sequence is a character of
its own, marked as malformed and read as U+FFFD. -/

namespace VhdlStyle.Utf8

/-- The replacement character. -/
def replacement : Nat := 0xFFFD

/-- One character of a text: its code point and the bytes that spell it. -/
structure Glyph where
  rune : Nat
  bytes : Bytes
  wellFormed : Bool
  deriving DecidableEq, Inhabited

/-- A continuation byte. -/
def isContinuation (b : UInt8) : Bool := 0x80 ≤ b && b < 0xC0

/-- The second byte allowed after a first byte of three and four byte sequences: this rules out
overlong forms, surrogates and code points beyond U+10FFFF. -/
def isSecond (first second : UInt8) : Bool :=
  if first == 0xE0 then 0xA0 ≤ second && second < 0xC0
  else if first == 0xED then 0x80 ≤ second && second < 0xA0
  else if first == 0xF0 then 0x90 ≤ second && second < 0xC0
  else if first == 0xF4 then 0x80 ≤ second && second < 0x90
  else isContinuation second

/-- The six payload bits of a continuation byte. -/
def payload (b : UInt8) : Nat := b.toNat % 64

/-- The character that starts with `b`. -/
def glyph (b : UInt8) (rest : Bytes) : Glyph :=
  let malformed : Glyph := ⟨replacement, [b], false⟩
  if b < 0x80 then ⟨b.toNat, [b], true⟩
  else if b < 0xC2 then malformed
  else if b < 0xE0 then
    match rest with
    | b1 :: _ =>
      if isContinuation b1 then ⟨(b.toNat % 32) * 64 + payload b1, [b, b1], true⟩ else malformed
    | _ => malformed
  else if b < 0xF0 then
    match rest with
    | b1 :: b2 :: _ =>
      if isSecond b b1 && isContinuation b2 then
        ⟨((b.toNat % 16) * 64 + payload b1) * 64 + payload b2, [b, b1, b2], true⟩
      else malformed
    | _ => malformed
  else if b < 0xF5 then
    match rest with
    | b1 :: b2 :: b3 :: _ =>
      if isSecond b b1 && isContinuation b2 && isContinuation b3 then
        ⟨(((b.toNat % 8) * 64 + payload b1) * 64 + payload b2) * 64 + payload b3,
          [b, b1, b2, b3], true⟩
      else malformed
    | _ => malformed
  else malformed

/-- The characters of a text after the first `skip` bytes. -/
def glyphsFrom : Nat → Bytes → List Glyph
  | _, [] => []
  | skip + 1, _ :: rest => glyphsFrom skip rest
  | 0, b :: rest =>
    let g := glyph b rest
    g :: glyphsFrom (g.bytes.length - 1) rest

/-- The characters of a text. -/
def glyphs (text : Bytes) : List Glyph := glyphsFrom 0 text

/-- The code points of a text. -/
def runes (text : Bytes) : List Nat := (glyphs text).map Glyph.rune

/-- The bytes that spell a code point; surrogates and numbers beyond U+10FFFF are spelt as the
replacement character. -/
def encode (rune : Nat) : Bytes :=
  let r := if (0xD800 ≤ rune && rune < 0xE000) || 0x10FFFF < rune then replacement else rune
  if r < 0x80 then [UInt8.ofNat r]
  else if r < 0x800 then [UInt8.ofNat (0xC0 + r / 64), UInt8.ofNat (0x80 + r % 64)]
  else if r < 0x10000 then
    [UInt8.ofNat (0xE0 + r / 4096), UInt8.ofNat (0x80 + r / 64 % 64), UInt8.ofNat (0x80 + r % 64)]
  else
    [UInt8.ofNat (0xF0 + r / 262144), UInt8.ofNat (0x80 + r / 4096 % 64),
      UInt8.ofNat (0x80 + r / 64 % 64), UInt8.ofNat (0x80 + r % 64)]

/-- The text that spells a list of code points. -/
def encodeAll (runes : List Nat) : Bytes := runes.flatMap encode

end VhdlStyle.Utf8

/-! ## Blank characters -/

namespace VhdlStyle.Blank

/-- The characters with the Unicode property `White_Space`. -/
def isBlank (r : Nat) : Bool :=
  (9 ≤ r && r ≤ 13) || r == 0x20 || r == 0x85 || r == 0xA0 || r == 0x1680 ||
    (0x2000 ≤ r && r ≤ 0x200A) || r == 0x2028 || r == 0x2029 || r == 0x202F || r == 0x205F ||
    r == 0x3000

/-- A well-formed blank character. -/
def isBlankGlyph (g : Utf8.Glyph) : Bool := g.wellFormed && isBlank g.rune

/-- The text without the blank characters at its two ends. -/
def trim (text : Bytes) : Bytes :=
  let front := (Utf8.glyphs text).dropWhile isBlankGlyph
  (front.reverse.dropWhile isBlankGlyph).reverse.flatMap Utf8.Glyph.bytes

end VhdlStyle.Blank
