import VhdlStyle.Toml.Basic

/-! # Numbers, dates and times in TOML -/

namespace VhdlStyle.Toml

/-- The hexadecimal digits. -/
def isHexByte (b : UInt8) : Bool :=
  Bytes.isDigit b || ('a' ≤ b && b ≤ 'f') || ('A' ≤ b && b ≤ 'F')

/-- The value of a hexadecimal digit. -/
def hexValue (b : UInt8) : Nat :=
  if Bytes.isDigit b then b.toNat - 48 else (Bytes.lowerByte b).toNat - 87

/-- The underscore. -/
def underscore : UInt8 := 95

/-- Every underscore follows a digit, and the text ends in one. -/
def underscoresOk (text : Bytes) : Bool :=
  let (ok, last) := text.foldl (fun (ok, digit) b =>
    (ok && (b != underscore || digit), isHexByte b)) (true, false)
  ok && last

/-- A sign before the digits. -/
def dropSign : Bytes → Bytes
  | b :: rest => if b == ('-' : UInt8) || b == ('+' : UInt8) then rest else b :: rest
  | [] => []

/-- A zero starts a number of several bytes. -/
def hasLeadingZero (text : Bytes) : Bool :=
  let digits := dropSign text
  1 < digits.length && digits.head? == some ('0' : UInt8)

/-- Digits in a base, without underscores. -/
def ofDigits (base : Nat) (digits : Bytes) : Nat :=
  (digits.filter (· != underscore)).foldl (fun n d => base * n + hexValue d) 0

/-- A number that fits into a signed word of 64 bits. -/
def integer? (n : Int) : Option Value :=
  if -0x8000000000000000 ≤ n && n < 0x8000000000000000 then some (.integer n) else none

/-- A decimal integer with an optional sign. -/
def decimal? (text : Bytes) : Option Value :=
  let n : Int := ofDigits 10 (dropSign text)
  if !underscoresOk text || hasLeadingZero text then none
  else integer? (if text.head? == some ('-' : UInt8) then -n else n)

/-- An integer in another base, without its prefix. -/
def based? (base : Nat) (digits : Bytes) : Option Value :=
  if underscoresOk digits then integer? (ofDigits base digits) else none

/-- The pieces of a text between the bytes on which `p` holds; empty pieces are left out. -/
def fields (p : UInt8 → Bool) (text : Bytes) : List Bytes :=
  let (pieces, last) := text.foldr (fun b (pieces, piece) =>
    if p b then (piece :: pieces, []) else (pieces, b :: piece)) (([] : List Bytes), ([] : Bytes))
  (last :: pieces).filter (!·.isEmpty)

/-- The mark of an exponent. -/
def isExponentMark (b : UInt8) : Bool := b == ('e' : UInt8) || b == ('E' : UInt8)

/-- Every point is followed by a digit. -/
def pointsOk : Bytes → Bool
  | [] => true
  | b :: rest => (b != ('.' : UInt8) || rest.head?.any Bytes.isDigit) && pointsOk rest

/-- The number `digits * 10 ^ scale` is too large for 64-bit floating point: half a unit beyond the
largest value it rounds up. The number of digits settles all cases far from that limit. -/
def isHuge (digits : Nat) (scale : Int) : Bool :=
  let limit := Nat.pow 2 1024 - Nat.pow 2 970
  let size : Int := (Nat.toDigits 10 digits).length + scale
  if digits == 0 || size < 300 then false
  else if 400 < size then true
  else limit * Nat.pow 10 (-scale).toNat ≤ digits * Nat.pow 10 scale.toNat

/-- Digits with an optional point in them: their number, and how many follow the point. -/
def mantissa? (text : Bytes) : Option (Nat × Nat) :=
  match Bytes.cut? '.' text with
  | none => if !text.isEmpty && text.all Bytes.isDigit then some (ofDigits 10 text, 0) else none
  | some (whole, part) =>
    let digits := whole ++ part
    if !digits.isEmpty && digits.all Bytes.isDigit then some (ofDigits 10 digits, part.length)
    else none

/-- An exponent with an optional sign. -/
def exponent? (text : Bytes) : Option Int :=
  let digits := dropSign text
  if digits.isEmpty || !digits.all Bytes.isDigit then none
  else
    let n : Int := ofDigits 10 digits
    some (if text.head? == some ('-' : UInt8) then -n else n)

/-- A number with a fraction or an exponent. -/
def float? (text : Bytes) : Option Value := do
  let parts := fields (fun b => b == ('.' : UInt8) || isExponentMark b) text
  if !parts.all underscoresOk || parts.head?.any hasLeadingZero || !pointsOk text then none
  let plain := dropSign (text.filter (· != underscore))
  let (digits, scale) ← match plain.span (!isExponentMark ·) with
    | (m, []) => (mantissa? m).map fun (n, places) => (n, -(places : Int))
    | (m, _ :: e) => do
      let (n, places) ← mantissa? m
      let e ← exponent? e
      pure (n, e - places)
  if isHuge digits scale then none else return .scalar

/-! ## Dates and times -/

/-- Reads two digits. -/
def twoDigits? : Bytes → Option (Nat × Bytes)
  | a :: b :: rest => if Bytes.isDigit a && Bytes.isDigit b then
      some (ofDigits 10 [a, b], rest) else none
  | _ => none

/-- Reads one or two digits. -/
def hour? (text : Bytes) : Option (Nat × Bytes) :=
  match twoDigits? text with
  | some r => some r
  | none => match text with
    | a :: rest => if Bytes.isDigit a then some (ofDigits 10 [a], rest) else none
    | [] => none

/-- The days of a month. -/
def daysIn (year month : Nat) : Nat :=
  if month == 2 then
    if year % 4 == 0 && (year % 100 != 0 || year % 400 == 0) then 29 else 28
  else if [4, 6, 9, 11].contains month then 30 else 31

/-- Reads a date. -/
def date? (text : Bytes) : Option Bytes := do
  let year := text.take 4
  if year.length < 4 || !year.all Bytes.isDigit then none
  let rest ← Bytes.dropPrefix? "-" (text.drop 4)
  let (month, rest) ← twoDigits? rest
  let rest ← Bytes.dropPrefix? "-" rest
  let (day, rest) ← twoDigits? rest
  if 1 ≤ month && month ≤ 12 && 1 ≤ day && day ≤ daysIn (ofDigits 10 year) month then some rest
  else none

/-- Drops a point and the digits after it, if there are any. -/
def dropFraction (text : Bytes) : Bytes :=
  match text with
  | b :: rest =>
    if b == ('.' : UInt8) && rest.head?.any Bytes.isDigit then rest.dropWhile Bytes.isDigit
    else text
  | [] => []

/-- Reads a time of day. -/
def time? (text : Bytes) : Option Bytes := do
  let (hour, rest) ← hour? text
  let rest ← Bytes.dropPrefix? ":" rest
  let (minute, rest) ← twoDigits? rest
  let rest ← Bytes.dropPrefix? ":" rest
  let (second, rest) ← twoDigits? rest
  if hour < 24 && minute < 60 && second < 60 then some (dropFraction rest) else none

/-- Reads a zone: `Z`, or a sign, hours and minutes. -/
def zone? (text : Bytes) : Option Bytes :=
  match text with
  | [] => none
  | b :: rest =>
    if b == ('Z' : UInt8) then some rest
    else if b == ('+' : UInt8) || b == ('-' : UInt8) then do
      let (hours, rest) ← twoDigits? rest
      let rest ← Bytes.dropPrefix? ":" rest
      let (minutes, rest) ← twoDigits? rest
      if hours ≤ 24 && minutes ≤ 60 then some rest else none
    else none

/-- The text is a date, a time, or both, the latter perhaps with a zone. -/
def isDateTime (text : Bytes) : Bool :=
  let isAll (r : Option Bytes) : Bool := r == some []
  match date? text with
  | none => isAll (time? text)
  | some rest =>
    rest.isEmpty || match (Bytes.dropPrefix? "T" rest).bind time? with
      | none => false
      | some rest => rest.isEmpty || isAll (zone? rest)

/-- A date or time; small letters and a blank may stand for the marks. -/
def dateTime? (text : Bytes) : Option Value :=
  let unified := (Bytes.trimRight (· == Bytes.space) text).map fun b =>
    if b == ('z' : UInt8) then ('Z' : UInt8)
    else if b == ('t' : UInt8) || b == Bytes.space then ('T' : UInt8) else b
  if isDateTime unified then some .scalar else none

/-! ## Reading numbers -/

/-- The bytes of a float after its first point or exponent mark. -/
def isFloatByte (b : UInt8) : Bool :=
  Bytes.isDigit b || b == underscore || b == ('.' : UInt8) || b == ('-' : UInt8) ||
    b == ('+' : UInt8) || isExponentMark b

/-- The bytes of a date or time after its first mark. -/
def isDateByte (b : UInt8) : Bool :=
  Bytes.isDigit b || b == ('-' : UInt8) || b == (':' : UInt8) || b == ('T' : UInt8) ||
    b == ('t' : UInt8) || b == Bytes.space || b == ('.' : UInt8) || b == ('Z' : UInt8) ||
    b == ('z' : UInt8) || b == ('+' : UInt8)

/-- A decimal number after its sign: digits and underscores, then perhaps a fraction. -/
def readDecimal (sign text : Bytes) : Option (Value × Bytes) :=
  let (digits, rest) := text.span fun b => Bytes.isDigit b || b == underscore
  match rest with
  | b :: _ =>
    if b == ('.' : UInt8) || isExponentMark b then
      let (more, rest) := rest.span isFloatByte
      (float? (List.flatten [sign, digits, more])).map (·, rest)
    else (decimal? (sign ++ digits)).map (·, rest)
  | [] => (decimal? (sign ++ digits)).map (·, rest)

/-- A number with a sign. -/
def readSigned (sign : UInt8) (text : Bytes) : Option (Value × Bytes) :=
  match Bytes.dropPrefix? "inf" text, Bytes.dropPrefix? "nan" text with
  | some rest, _ => some (.scalar, rest)
  | none, some rest => some (.scalar, rest)
  | none, none =>
    match text with
    | a :: rest =>
      let base := rest.head?.any fun b => b == ('b' : UInt8) || b == ('o' : UInt8) ||
        b == ('x' : UInt8)
      if !Bytes.isDigit a || (a == ('0' : UInt8) && base) then none else readDecimal [sign] text
    | [] => none

/-- Digits of a base after its mark. -/
def readBased (base : Nat) (isDigit : UInt8 → Bool) (text : Bytes) : Option (Value × Bytes) :=
  let (digits, rest) := text.span fun b => isDigit b || b == underscore
  if digits.head?.any isDigit then (based? base digits).map (·, rest) else none

/-- A number, date or time that starts with a digit. A lone zero starts neither date nor time. -/
def readNumber (text : Bytes) : Option (Value × Bytes) :=
  let (digits, rest) := text.span Bytes.isDigit
  let isZero := digits == "0"
  match rest with
  | b :: after =>
    if isZero && b == ('x' : UInt8) then readBased 16 isHexByte after
    else if isZero && b == ('o' : UInt8) then readBased 8 (fun d => '0' ≤ d && d ≤ '7') after
    else if isZero && b == ('b' : UInt8) then readBased 2 (fun d => '0' ≤ d && d ≤ '1') after
    else if !isZero && (b == ('-' : UInt8) || b == (':' : UInt8)) then
      let (more, rest) := rest.span isDateByte
      (dateTime? (digits ++ more)).map (·, rest)
    else readDecimal [] text
  | [] => readDecimal [] text

end VhdlStyle.Toml
