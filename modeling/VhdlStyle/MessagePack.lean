import VhdlStyle.Text.Bytes

/-! # MessagePack values

A reader for one value at the front of some bytes, and the fixed-width writers that records are made
of. Texts and binary strings are read alike; floating point numbers and extensions are passed over.
-/

namespace VhdlStyle.MessagePack

/-- A value, as far as records need to tell values apart. -/
inductive Value where
  | nil
  | bool (value : Bool)
  | int (value : Int)
  | text (value : Bytes)
  | list (items : List Value)
  | map (members : List (Value × Value))
  | skipped

/-! ## Reading -/

/-- Bytes as an unsigned number, the highest first. -/
def number (bytes : Bytes) : Nat := bytes.foldl (fun n b => n * 256 + b.toNat) 0

/-- The first `n` bytes, if there are so many. -/
def take? (n : Nat) (bytes : Bytes) : Option (Bytes × Bytes) :=
  if n ≤ bytes.length then some (bytes.take n, bytes.drop n) else none

/-- An unsigned number of `width` bytes. -/
def unsigned? (width : Nat) (bytes : Bytes) : Option (Nat × Bytes) :=
  (take? width bytes).map fun (digits, rest) => (number digits, rest)

/-- A number in two's complement of `width` bytes. -/
def signed? (width : Nat) (bytes : Bytes) : Option (Int × Bytes) :=
  (unsigned? width bytes).map fun (n, rest) => (Int.bmod n (Nat.pow 256 width), rest)

/-- Values two by two. -/
def pairs : List Value → List (Value × Value)
  | key :: value :: rest => (key, value) :: pairs rest
  | _ => []

/-- What the first byte of a value says about the bytes after it. -/
inductive Head where
  | done (value : Value)
  | unsigned (width : Nat)
  | signed (width : Nat)
  | text (lengthWidth : Nat)
  | fixedText (length : Nat)
  | list (lengthWidth : Nat)
  | fixedList (length : Nat)
  | map (lengthWidth : Nat)
  | fixedMap (length : Nat)
  | skip (length : Nat)
  | extension (lengthWidth : Nat)

/-- The meaning of a first byte; one byte has none. -/
def head? (b : UInt8) : Option Head :=
  let n := b.toNat
  if n < 0x80 then some (.done (.int n))
  else if n < 0x90 then some (.fixedMap (n - 0x80))
  else if n < 0xA0 then some (.fixedList (n - 0x90))
  else if n < 0xC0 then some (.fixedText (n - 0xA0))
  else if 0xE0 ≤ n then some (.done (.int (n - 256)))
  else match n with
    | 0xC0 => some (.done .nil)
    | 0xC2 => some (.done (.bool false))
    | 0xC3 => some (.done (.bool true))
    | 0xC4 | 0xD9 => some (.text 1)
    | 0xC5 | 0xDA => some (.text 2)
    | 0xC6 | 0xDB => some (.text 4)
    | 0xC7 => some (.extension 1)
    | 0xC8 => some (.extension 2)
    | 0xC9 => some (.extension 4)
    | 0xCA => some (.skip 4)
    | 0xCB => some (.skip 8)
    | 0xCC => some (.unsigned 1)
    | 0xCD => some (.unsigned 2)
    | 0xCE => some (.unsigned 4)
    | 0xCF => some (.unsigned 8)
    | 0xD0 => some (.signed 1)
    | 0xD1 => some (.signed 2)
    | 0xD2 => some (.signed 4)
    | 0xD3 => some (.signed 8)
    | 0xD4 => some (.skip 2)
    | 0xD5 => some (.skip 3)
    | 0xD6 => some (.skip 5)
    | 0xD7 => some (.skip 9)
    | 0xD8 => some (.skip 17)
    | 0xDC => some (.list 2)
    | 0xDD => some (.list 4)
    | 0xDE => some (.map 2)
    | 0xDF => some (.map 4)
    | _ => none

/-- A text of known length. -/
def textOf? (length : Nat) (bytes : Bytes) : Option (Value × Bytes) :=
  (take? length bytes).map fun (text, rest) => (.text text, rest)

mutual

/-- The value at the front of some bytes, nested no deeper than the fuel allows. -/
def valueN : Nat → Bytes → Option (Value × Bytes)
  | 0, _ => none
  | _ + 1, [] => none
  | fuel + 1, b :: rest => do
    match ← head? b with
    | .done v => some (v, rest)
    | .unsigned w => (unsigned? w rest).map fun (n, rest) => (.int n, rest)
    | .signed w => (signed? w rest).map fun (n, rest) => (.int n, rest)
    | .fixedText n => textOf? n rest
    | .text w => do
      let (n, rest) ← unsigned? w rest
      textOf? n rest
    | .fixedList n => (valuesN fuel n rest).map fun (vs, rest) => (.list vs, rest)
    | .list w => do
      let (n, rest) ← unsigned? w rest
      (valuesN fuel n rest).map fun (vs, rest) => (.list vs, rest)
    | .fixedMap n => (valuesN fuel (2 * n) rest).map fun (vs, rest) => (.map (pairs vs), rest)
    | .map w => do
      let (n, rest) ← unsigned? w rest
      (valuesN fuel (2 * n) rest).map fun (vs, rest) => (.map (pairs vs), rest)
    | .skip n => (take? n rest).map fun (_, rest) => (.skipped, rest)
    | .extension w => do
      let (n, rest) ← unsigned? w rest
      (take? (n + 1) rest).map fun (_, rest) => (.skipped, rest)

/-- So many values at the front of some bytes. -/
def valuesN : Nat → Nat → Bytes → Option (List Value × Bytes)
  | _, 0, bytes => some ([], bytes)
  | 0, _ + 1, _ => none
  | fuel + 1, count + 1, bytes => do
    let (v, rest) ← valueN fuel bytes
    let (vs, rest) ← valuesN fuel count rest
    return (v :: vs, rest)

end

/-- The value at the front of some bytes; what follows it does not matter. -/
def read? (bytes : Bytes) : Option Value := (valueN (2 * bytes.length + 2) bytes).map (·.1)

/-! ## Writing -/

/-- A number as `width` bytes, the highest first. -/
def bigEndian (width n : Nat) : Bytes :=
  (List.range width).reverse.map fun i => UInt8.ofNat (n / Nat.pow 256 i % 256)

/-- A text of fewer than 32 bytes. -/
def shortText (t : Bytes) : Bytes := UInt8.ofNat (0xA0 + t.length % 32) :: t

/-- A 16-bit number. -/
def word16 (n : UInt16) : Bytes := 0xCD :: bigEndian 2 n.toNat

/-- A 32-bit number. -/
def word32 (n : UInt32) : Bytes := 0xCE :: bigEndian 4 n.toNat

/-- A 64-bit number in two's complement. -/
def int64 (n : Int) : Bytes := 0xD3 :: bigEndian 8 (n % 0x10000000000000000).toNat

/-- A truth value. -/
def bool (b : Bool) : Bytes := [if b then 0xC3 else 0xC2]

/-- A map of fewer than 16 members with short texts as keys. -/
def shortMap (members : List (Bytes × Bytes)) : Bytes :=
  UInt8.ofNat (0x80 + members.length % 16) ::
    members.flatMap fun (name, value) => shortText name ++ value

end VhdlStyle.MessagePack
