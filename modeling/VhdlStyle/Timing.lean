import VhdlStyle.Text.Utf8
import VhdlStyle.Time

/-! # Timings of phases

Each phase adds up the time and the number of its runs. Phases are listed in the order in which they
first ran. Measured values are held with 53 binary digits and shown with two decimals; both ways a
half goes to the even neighbour. -/

namespace VhdlStyle

/-! ## Rounding quotients -/

namespace Rounding

/-- The whole number nearest to `num / den`; a half goes to the even neighbour. -/
def nearest (num den : Nat) : Nat :=
  let q := num / den
  let r := num % den
  if 2 * r < den then q else if den < 2 * r then q + 1 else q + q % 2

/-- The number `digits / 2 ^ shift`. -/
structure Dyadic where
  digits : Nat
  shift : Nat
  deriving DecidableEq, Inhabited

/-- How many binary digits are kept. -/
def precision : Nat := 53

/-- A whole number cut to its first 53 binary digits. -/
def ofNat (n : Nat) : Nat :=
  let extra := n.log2 + 1 - precision
  nearest n (Nat.pow 2 extra) * Nat.pow 2 extra

/-- The quotient with 53 binary digits, for a quotient below `2 ^ 53`. -/
def quotient (num den : Nat) : Dyadic :=
  if num == 0 then ⟨0, 0⟩
  else
    let shift := precision + den.log2 - num.log2
    let shift := if num * Nat.pow 2 shift < den * Nat.pow 2 precision then shift else shift - 1
    ⟨nearest (num * Nat.pow 2 shift) den, shift⟩

/-- A dyadic number in units of `1 / scale`, rounded. -/
def Dyadic.scaled (d : Dyadic) (scale : Nat) : Nat := nearest (d.digits * scale) (Nat.pow 2 d.shift)

end Rounding

/-! ## Phases -/

/-- One phase of a run. -/
structure Phase where
  name : Bytes
  total : Duration := ⟨0⟩
  count : Nat := 0
  deriving DecidableEq, Inhabited

/-- The phases so far. -/
structure Timing where
  phases : List Phase := []
  deriving DecidableEq, Inhabited

namespace Timing

/-- One more run of a phase. -/
def Phase.run (p : Phase) (d : Duration) : Phase :=
  { p with total := p.total.add d, count := p.count + 1 }

/-- Adds one run of the phase called `name`. -/
def addTo (name : Bytes) (d : Duration) : List Phase → List Phase
  | [] => [Phase.run { name } d]
  | p :: rest => if p.name == name then Phase.run p d :: rest else p :: addTo name d rest

/-- Adds one run of a phase. -/
def add (t : Timing) (name : Bytes) (d : Duration) : Timing := ⟨addTo name d t.phases⟩

/-- Milliseconds with two decimals. -/
def millis (d : Duration) : Bytes :=
  let hundredths := (Rounding.quotient (Rounding.ofNat d.nanos.natAbs) 1000000).scaled 100
  let digits : Bytes := List.flatten [Bytes.ofNat (hundredths / 100), ".",
    Bytes.padLeft 2 '0' (Bytes.ofNat (hundredths % 100))]
  if d.nanos < 0 then '-' :: digits else digits

/-- A name filled up to twelve characters. -/
def column (name : Bytes) : Bytes :=
  name ++ List.replicate (12 - (Utf8.runes name).length) Bytes.space

/-- A name and its time. -/
def row (name : Bytes) (d : Duration) : Bytes :=
  List.flatten ["  ", column name, " ", Bytes.padLeft 9 Bytes.space (millis d), " ms"]

/-- The heading and the lines of the phases. -/
def lines (t : Timing) : List Bytes :=
  Bytes.ofString "timings:" :: t.phases.map fun p =>
    List.flatten [row p.name p.total, "  x", Bytes.ofNat p.count]

/-- All lines and the time of the whole run. -/
def summary (t : Timing) (wall : Duration) : Bytes :=
  (t.lines ++ [row "wall" wall]).flatMap (· ++ [Bytes.lf])

end Timing

end VhdlStyle
