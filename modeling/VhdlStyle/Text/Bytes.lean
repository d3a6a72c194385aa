/-! # Byte texts

Sources, names, comments and messages are lists of bytes. Nothing here assumes that the bytes
form valid UTF-8; the modules that need characters decode them on their own terms. -/

namespace VhdlStyle

/-- A text is the list of its bytes. -/
abbrev Bytes := List UInt8

/-- A quoted text stands for its UTF-8 bytes. -/
def Bytes.ofString (s : String) : Bytes := s.toUTF8.data.toList

instance textOfString : Coe String Bytes := ⟨Bytes.ofString⟩

/-- An ASCII character stands for its code. -/
instance byteOfChar : Coe Char UInt8 := ⟨Char.toUInt8⟩

namespace Bytes

/-- The line feed. -/
@[match_pattern] abbrev lf : UInt8 := 10

/-- The carriage return. -/
@[match_pattern] abbrev cr : UInt8 := 13

/-- The space. -/
@[match_pattern] abbrev space : UInt8 := 32

/-- The horizontal tab. -/
@[match_pattern] abbrev tab : UInt8 := 9

/-- `text` if it is not empty, else `fallback`. -/
def orElse (text fallback : Bytes) : Bytes :=
  if text.isEmpty then fallback else text

/-! ## Numbers -/

/-- The decimal digits of `n`. -/
def ofNat (n : Nat) : Bytes := (Nat.toDigits 10 n).map Char.toUInt8

/-- The decimal digits of `n`, after a minus sign when `n` is negative. -/
def ofInt : Int → Bytes
  | .ofNat n => ofNat n
  | .negSucc n => '-' :: ofNat (n + 1)

/-- `text` preceded by copies of `fill` up to `width` bytes. -/
def padLeft (width : Nat) (fill : UInt8) (text : Bytes) : Bytes :=
  List.replicate (width - text.length) fill ++ text

/-- `text` followed by copies of `fill` up to `width` bytes. -/
def padRight (width : Nat) (fill : UInt8) (text : Bytes) : Bytes :=
  text ++ List.replicate (width - text.length) fill

/-- The lower-case hexadecimal digit of a value below sixteen. -/
def hexDigit (n : UInt8) : UInt8 := if n < 10 then 48 + n else 87 + n

/-- Two lower-case hexadecimal digits for each byte. -/
def toHex (text : Bytes) : Bytes := text.flatMap fun b => [hexDigit (b / 16), hexDigit (b % 16)]

/-! ## ASCII classes -/

/-- The ASCII letters. -/
def isLetter (b : UInt8) : Bool := ('A' ≤ b && b ≤ 'Z') || ('a' ≤ b && b ≤ 'z')

/-- The ASCII digits. -/
def isDigit (b : UInt8) : Bool := '0' ≤ b && b ≤ '9'

/-- Maps the ASCII capitals to small letters and keeps every other byte. -/
def lowerByte (b : UInt8) : UInt8 := if 'A' ≤ b && b ≤ 'Z' then b + 32 else b

/-- Maps the ASCII small letters to capitals and keeps every other byte. -/
def upperByte (b : UInt8) : UInt8 := if 'a' ≤ b && b ≤ 'z' then b - 32 else b

/-! ## Searching and cutting -/

/-- The bytes before the longest suffix on which `p` holds throughout. -/
def trimRight (p : UInt8 → Bool) (text : Bytes) : Bytes := (text.reverse.dropWhile p).reverse

/-- The bytes between the longest prefix and the longest suffix on which `p` holds throughout. -/
def trim (p : UInt8 → Bool) (text : Bytes) : Bytes := trimRight p (text.dropWhile p)

/-- The offset of the first occurrence of `pattern`. -/
def indexOf? (pattern : Bytes) : Bytes → Option Nat
  | [] => if pattern.isEmpty then some 0 else none
  | b :: rest =>
    if pattern.isPrefixOf (b :: rest) then some 0 else (indexOf? pattern rest).map (· + 1)

/-- `pattern` occurs somewhere in `text`. -/
def includes (pattern text : Bytes) : Bool := (indexOf? pattern text).isSome

/-- The pieces between the occurrences of the byte `sep`; there is always at least one. -/
def split (sep : UInt8) : Bytes → List Bytes
  | [] => [[]]
  | b :: rest =>
    if b == sep then [] :: split sep rest
    else match split sep rest with
      | [] => [[b]]
      | piece :: pieces => (b :: piece) :: pieces

/-- The pieces joined with `sep` between them. -/
def join (sep : Bytes) (pieces : List Bytes) : Bytes := sep.intercalate pieces

/-- The text cut before and after the first occurrence of the byte `sep`. -/
def cut? (sep : UInt8) (text : Bytes) : Option (Bytes × Bytes) :=
  match text.span (· != sep) with
  | (_, []) => none
  | (before, _ :: after) => some (before, after)

/-- `text` without `pattern` at its front. -/
def dropPrefix? (pattern text : Bytes) : Option Bytes :=
  if pattern.isPrefixOf text then some (text.drop pattern.length) else none

/-- Every occurrence of `pattern` replaced, from the left; `skip` bytes are already dealt with. -/
def replaceFrom (pattern new : Bytes) : Nat → Bytes → Bytes
  | _, [] => []
  | skip + 1, _ :: rest => replaceFrom pattern new skip rest
  | 0, b :: rest =>
    if pattern.isPrefixOf (b :: rest) then
      new ++ replaceFrom pattern new (pattern.length - 1) rest
    else b :: replaceFrom pattern new 0 rest

/-- Every occurrence of `pattern` replaced, from the left. -/
def replace (pattern new text : Bytes) : Bytes :=
  if pattern.isEmpty then text else replaceFrom pattern new 0 text

/-- `pattern` stands at the end of `text`. -/
def endsWith (pattern text : Bytes) : Bool := pattern.isSuffixOf text

/-- The lexicographic order by bytes. -/
def le (a b : Bytes) : Bool := !(b < a : Bool)

end Bytes

end VhdlStyle
