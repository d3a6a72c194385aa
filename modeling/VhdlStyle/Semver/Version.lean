import VhdlStyle.Text.Bytes

/-! # Semantic versions

A version has three numbers, the last two of which may be missing, then perhaps a pre-release after
a hyphen and build data after a plus sign. Build data never counts in comparisons. -/

namespace VhdlStyle.Semver

/-- A version. -/
structure Version where
  major : Nat := 0
  minor : Nat := 0
  patch : Nat := 0
  pre : Bytes := []
  build : Bytes := []
  deriving DecidableEq, Inhabited

/-- The letters of pre-releases and build data. -/
def isLabelByte (b : UInt8) : Bool := Bytes.isLetter b || Bytes.isDigit b || b == ('-' : UInt8)

/-- The digits as a number that fits into 64 bits. -/
def number? (digits : Bytes) : Option Nat :=
  let n := digits.foldl (fun n d => 10 * n + (d.toNat - 48)) 0
  if !digits.isEmpty && digits.all Bytes.isDigit && n < 0x10000000000000000 then some n else none

/-- Reads the longest run of at least one byte on which `p` holds. -/
def run? (p : UInt8 → Bool) (text : Bytes) : Option (Bytes × Bytes) :=
  match text.span p with
  | ([], _) => none
  | parts => some parts

/-- Reads `.` and a run, or nothing. -/
def dottedRun (p : UInt8 → Bool) (text : Bytes) : Bytes × Bytes :=
  match text with
  | b :: rest =>
    if b != ('.' : UInt8) then ([], text)
    else match run? p rest with
      | some (run, rest) => ('.' :: run, rest)
      | none => ([], text)
  | [] => ([], [])

/-- Reads as many dotted runs as there are, at most `fuel`. -/
def dottedRuns (p : UInt8 → Bool) : Nat → Bytes → Bytes × Bytes
  | 0, text => ([], text)
  | fuel + 1, text =>
    match dottedRun p text with
    | ([], _) => ([], text)
    | (run, rest) =>
      let (runs, rest) := dottedRuns p fuel rest
      (run ++ runs, rest)

/-- Reads a mark and the labels after it, or nothing. -/
def labels (mark : UInt8) (text : Bytes) : Bytes × Bytes :=
  match text with
  | b :: rest =>
    if b != mark then ([], text)
    else match run? isLabelByte rest with
      | none => ([], text)
      | some (first, rest) =>
        let (more, rest) := dottedRuns isLabelByte rest.length rest
        (mark :: first ++ more, rest)
  | [] => ([], [])

/-- The parts of a version text. Each part but the first keeps the mark before it. -/
structure Parts where
  major : Bytes
  minor : Bytes
  patch : Bytes
  pre : Bytes
  build : Bytes
  deriving DecidableEq, Inhabited

/-- Reads a version whose numbers consist of the bytes on which `p` holds; a `v` may precede it. -/
def Parts.read? (p : UInt8 → Bool) (text : Bytes) : Option (Parts × Bytes) := do
  let text := match text with
    | b :: rest => if b == ('v' : UInt8) then rest else text
    | [] => []
  let (major, rest) ← run? p text
  let (minor, rest) := dottedRun p rest
  let (patch, rest) := dottedRun p rest
  let (pre, rest) := labels '-' rest
  let (build, rest) := labels '+' rest
  return (⟨major, minor, patch, pre, build⟩, rest)

/-- A numeric label of a pre-release has no leading zero. -/
def isGoodLabel (label : Bytes) : Bool :=
  !(label.all Bytes.isDigit && 1 < label.length && label.head? == some ('0' : UInt8))

namespace Version

/-- Reads a whole text as a version. -/
def parse? (text : Bytes) : Option Version := do
  let (parts, rest) ← Parts.read? Bytes.isDigit text
  if !rest.isEmpty then none
  let part? (t : Bytes) : Option Nat := if t.isEmpty then some 0 else number? (t.drop 1)
  let pre := parts.pre.drop 1
  if !pre.isEmpty && !(Bytes.split '.' pre).all isGoodLabel then none
  return { major := ← number? parts.major
           minor := ← part? parts.minor
           patch := ← part? parts.patch
           pre
           build := parts.build.drop 1 }

/-- The version with all three numbers. -/
def text (v : Version) : Bytes :=
  List.flatten [Bytes.ofNat v.major, ".", Bytes.ofNat v.minor, ".", Bytes.ofNat v.patch,
    if v.pre.isEmpty then [] else '-' :: v.pre,
    if v.build.isEmpty then [] else '+' :: v.build]

/-- The order of labels: a missing one comes first, numbers come before words. -/
def compareLabel (a b : Bytes) : Ordering :=
  if a == b then .eq
  else if a.isEmpty then .lt
  else if b.isEmpty then .gt
  else match number? a, number? b with
    | some m, some n => if n < m then .gt else .lt
    | some _, none => .lt
    | none, some _ => .gt
    | none, none => if b < a then .gt else .lt

/-- The first difference of two lists of labels; the shorter one is filled up with missing ones. -/
def compareLabels : List Bytes → List Bytes → Ordering
  | [], [] => .eq
  | a :: as, [] => (compareLabel a []).then (compareLabels as [])
  | [], b :: bs => (compareLabel [] b).then (compareLabels [] bs)
  | a :: as, b :: bs => (compareLabel a b).then (compareLabels as bs)

/-- The order of pre-releases. -/
def comparePre (a b : Bytes) : Ordering := compareLabels (Bytes.split '.' a) (Bytes.split '.' b)

/-- The order of versions: numbers first, and a release comes after its pre-releases. -/
def compare (a b : Version) : Ordering :=
  (Ord.compare a.major b.major).then <| (Ord.compare a.minor b.minor).then <|
    (Ord.compare a.patch b.patch).then <|
      if a.pre.isEmpty && b.pre.isEmpty then .eq
      else if a.pre.isEmpty then .gt
      else if b.pre.isEmpty then .lt
      else comparePre a.pre b.pre

end Version

end VhdlStyle.Semver
