import VhdlStyle.Text.Bytes

/-! # Whole numbers as they are typed

A number has an optional sign, an optional base mark (`0x`, `0o`, `0b`, or a bare leading zero for
base eight) and digits, which single underscores may separate. It must fit into 64 bits. -/

namespace VhdlStyle.Number

/-- Why a text is no number. -/
inductive LiteralFault where
  | malformed
  | outOfRange
  deriving DecidableEq, Inhabited

/-- The fault in words. -/
def LiteralFault.message : LiteralFault → Bytes
  | .malformed => "invalid syntax"
  | .outOfRange => "value out of range"

/-- The base of an unsigned text and its digits. -/
def base (text : Bytes) : Nat × Bytes :=
  match text with
  | 48 :: mark :: digit :: rest =>
    let mark' := Bytes.lowerByte mark
    if mark' == 'b' then (2, digit :: rest)
    else if mark' == 'o' then (8, digit :: rest)
    else if mark' == 'x' then (16, digit :: rest)
    else (8, mark :: digit :: rest)
  | 48 :: rest => (8, rest)
  | _ => (10, text)

/-- The value of a digit. -/
def digit? (b : UInt8) : Option Nat :=
  let small := Bytes.lowerByte b
  if Bytes.isDigit b then some (b.toNat - 48)
  else if 'a' ≤ small && small ≤ 'z' then some (small.toNat - 87)
  else none

/-- The value of digits after the number read so far, below `bound`. The first digit that leads
too far ends the reading. -/
def digits (base bound : Nat) : Nat → Bytes → Except LiteralFault Nat
  | n, [] => .ok n
  | n, b :: rest =>
    if b == '_' then digits base bound n rest
    else match digit? b with
      | none => .error .malformed
      | some d =>
        if base ≤ d then .error .malformed
        else if bound ≤ n * base + d then .error .outOfRange
        else digits base bound (n * base + d) rest

/-- Every underscore stands between two digits; `afterDigit` tells what stands before the text. -/
def separated (afterDigit : Bool) : Bytes → Bool
  | [] => true
  | 95 :: rest =>
    afterDigit && (match rest with
      | [] => false
      | next :: _ => next != '_') && separated false rest
  | _ :: rest => separated true rest

/-- The value of a text without a sign. -/
def magnitude (text : Bytes) : Except LiteralFault Nat := do
  if text.isEmpty then .error .malformed
  let (b, body) := base text
  let n ← digits b 0x10000000000000000 0 body
  if separated (b != 10) body then .ok n else .error .malformed

/-- The value of a text. -/
def ofText (text : Bytes) : Except LiteralFault Int :=
  let (negative, body) := match text with
    | 45 :: rest => (true, rest)
    | 43 :: rest => (false, rest)
    | _ => (false, text)
  match magnitude body with
  | .error fault => .error fault
  | .ok n =>
    if negative then (if n ≤ 0x8000000000000000 then .ok (-(n : Int)) else .error .outOfRange)
    else if n < 0x8000000000000000 then .ok n
    else .error .outOfRange

end VhdlStyle.Number
