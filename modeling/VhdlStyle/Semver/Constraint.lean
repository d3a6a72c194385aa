import VhdlStyle.Semver.Version

/-! # Version constraints

A constraint lists alternatives between `||`. An alternative lists clauses, separated by blanks or
commas, all of which must hold. A clause is an operator and a version whose trailing numbers may be
missing or wild. A range `a - b` stands for `>= a, <= b`. -/

namespace VhdlStyle.Semver

/-- How a clause compares. -/
inductive Operator where
  | same
  | different
  | above
  | below
  | atLeast
  | atMost
  | tilde
  | caret
  deriving DecidableEq, Inhabited

/-- How many of the numbers of a clause are given: all of them, all but the patch, only the major
number, or none. -/
inductive Precision where
  | full
  | noPatch
  | noMinor
  | wild
  deriving DecidableEq, Inhabited

/-- One comparison with the version it was written with. -/
structure Clause where
  operator : Operator
  version : Version
  written : Bytes
  precision : Precision
  deriving DecidableEq, Inhabited

/-- Alternatives, each a list of clauses. -/
structure Constraint where
  alternatives : List (List Clause)
  deriving DecidableEq, Inhabited

/-- Why a text is no constraint. -/
inductive ConstraintFault where
  | improper (segment : Bytes)
  | badVersion
  deriving DecidableEq, Inhabited

/-- The fault in words. -/
def ConstraintFault.message : ConstraintFault → Bytes
  | .improper segment => Bytes.ofString "improper constraint: " ++ segment
  | .badVersion => "constraint Parser Error"

/-! ## Reading -/

/-- Blanks between the parts of a constraint. -/
def isBlank (b : UInt8) : Bool := b == 32 || b == 9 || b == 10 || b == 12 || b == 13

/-- The bytes of a number or a wild card; a lone bar belongs to them too. -/
def isNumberByte (b : UInt8) : Bool :=
  Bytes.isDigit b || b == ('x' : UInt8) || b == ('X' : UInt8) || b == ('*' : UInt8) ||
    b == ('|' : UInt8)

/-- A part that stands for any number. -/
def isWild (part : Bytes) : Bool := part.isEmpty || part == "x" || part == "X" || part == "*"

/-- The operators, those that start like others first. -/
def operators : List (String × Operator) :=
  [("!=", .different), (">=", .atLeast), ("=>", .atLeast), ("<=", .atMost), ("=<", .atMost),
   ("~>", .tilde), ("=", .same), (">", .above), ("<", .below), ("~", .tilde), ("^", .caret)]

/-- Reads an operator; none means equality. -/
def readOperator (text : Bytes) : Operator × Bytes :=
  match operators.find? fun o => (Bytes.ofString o.1).isPrefixOf text with
  | some (name, op) => (op, text.drop (Bytes.ofString name).length)
  | none => (.same, text)

/-- A clause as it is written. -/
structure RawClause where
  operator : Operator
  parts : Parts
  written : Bytes

/-- The bytes of `text` before its suffix `rest`. -/
def before (text rest : Bytes) : Bytes := text.take (text.length - rest.length)

/-- Reads an operator and a version. -/
def readClause? (text : Bytes) : Option (RawClause × Bytes) := do
  let (operator, rest) := readOperator (text.dropWhile isBlank)
  let version := rest.dropWhile isBlank
  let (parts, rest) ← Parts.read? isNumberByte version
  return (⟨operator, parts, before version rest⟩, rest)

/-- Reads the clauses of an alternative, at most `fuel`. -/
def readClauses? : Nat → Bytes → Option (List RawClause)
  | 0, _ => none
  | fuel + 1, text => do
    let (clause, rest) ← readClause? text
    let next := rest.dropWhile isBlank
    match next with
    | [] => return [clause]
    | b :: after =>
      if b == (',' : UInt8) then return clause :: (← readClauses? fuel after)
      else if next.length < rest.length then return clause :: (← readClauses? fuel next)
      else none

/-- How many numbers a clause gives. -/
def Parts.precision (p : Parts) : Precision :=
  if isWild p.major then .wild
  else if isWild (p.minor.drop 1) then .noMinor
  else if isWild (p.patch.drop 1) then .noPatch
  else .full

/-- The version a clause is compared with: missing and wild numbers count as zero. -/
def RawClause.version? (c : RawClause) : Option Version :=
  let p := c.parts
  match p.precision with
  | .wild => Version.parse? (Bytes.ofString "0.0.0" ++ p.pre)
  | .noMinor => Version.parse? (List.flatten [p.major, ".0.0", p.pre])
  | .noPatch => Version.parse? (List.flatten [p.major, p.minor, ".0", p.pre])
  | .full => Version.parse? c.written

/-- The clause with its version read. -/
def RawClause.clause (c : RawClause) : Except ConstraintFault Clause :=
  match c.version? with
  | some version => .ok ⟨c.operator, version, c.written, c.parts.precision⟩
  | none => .error .badVersion

/-- Reads one alternative. -/
def readAlternative (text : Bytes) : Except ConstraintFault (List Clause) :=
  match readClauses? (text.length + 1) text with
  | none => .error (.improper text)
  | some clauses => clauses.mapM RawClause.clause

/-! ## Ranges -/

/-- A range at the front of a text: what it covers, and its ends. -/
def readRange? (text : Bytes) : Option (Bytes × Bytes × Bytes) := do
  let low := text.dropWhile isBlank
  let (_, rest) ← Parts.read? isNumberByte low
  let (_, rest') ← run? isBlank rest
  let rest' ← Bytes.dropPrefix? "-" rest'
  let (_, high) ← run? isBlank rest'
  let (_, after) ← Parts.read? isNumberByte high
  return (before text (after.dropWhile isBlank), before low rest, before high after)

/-- All ranges of a text, none inside another; `skip` bytes belong to the range before. -/
def ranges : Nat → Bytes → List (Bytes × Bytes × Bytes)
  | _, [] => []
  | skip + 1, _ :: rest => ranges skip rest
  | 0, b :: rest =>
    match readRange? (b :: rest) with
    | some r => r :: ranges (r.1.length - 1) rest
    | none => ranges 0 rest

/-- The first occurrence of `old` replaced. -/
def replaceFirst (old new text : Bytes) : Bytes :=
  match Bytes.indexOf? old text with
  | some i => List.flatten [text.take i, new, text.drop (i + old.length)]
  | none => text

/-- Every range written as two clauses. -/
def expandRanges (text : Bytes) : Bytes :=
  (ranges 0 text).foldl (fun t (covered, low, high) =>
    replaceFirst covered (List.flatten [">= ", low, ", <= ", high, " "]) t) text

/-- The pieces of a text between the occurrences of `||`. -/
def splitBars : Bytes → List Bytes
  | [] => [[]]
  | [b] => [[b]]
  | a :: b :: rest =>
    if a == ('|' : UInt8) && b == ('|' : UInt8) then [] :: splitBars rest
    else match splitBars (b :: rest) with
      | [] => [[a]]
      | piece :: pieces => (a :: piece) :: pieces

/-- Reads a constraint. -/
def Constraint.parse (text : Bytes) : Except ConstraintFault Constraint :=
  ((splitBars (expandRanges text)).mapM readAlternative).map Constraint.mk

/-! ## Checking -/

/-- Why a version does not satisfy a clause. -/
inductive Mismatch where
  | prerelease (v : Version)
  | relation (v : Version) (words : Bytes) (written : Bytes) (rest : Bytes)
  deriving DecidableEq, Inhabited

/-- The mismatch in words. -/
def Mismatch.message : Mismatch → Bytes
  | .prerelease v => v.text ++ Bytes.ofString
      " is a prerelease version and the constraint is only looking for release versions"
  | .relation v words written rest => List.flatten [v.text, " ", words, " ", written, rest]

namespace Clause

/-- The clause holds, or the relation that does. -/
def holdsOr (c : Clause) (v : Version) (holds : Bool) (words : Bytes) : Except Mismatch Unit :=
  if holds then .ok () else .error (.relation v words c.written [])

/-- Some number is missing or wild. -/
def isLoose (c : Clause) : Bool := c.precision != .full

/-- The version is another one than that of the clause, as far as its numbers go. -/
def isDifferent (c : Clause) (v : Version) : Bool :=
  let w := c.version
  match c.precision with
  | .noMinor => w.major != v.major
  | .noPatch => w.major != v.major || w.minor != v.minor ||
      ((!v.pre.isEmpty || !w.pre.isEmpty) && Version.comparePre v.pre w.pre != .eq)
  | _ => v.compare w != .eq

/-- The version lies above all that the clause covers. -/
def isAbove (c : Clause) (v : Version) : Bool :=
  let w := c.version
  match c.precision with
  | .noMinor => w.major < v.major
  | .noPatch => w.major < v.major || (w.major == v.major && w.minor < v.minor)
  | _ => v.compare w == .gt

/-- The version does not lie above all that the clause covers. -/
def isAtMost (c : Clause) (v : Version) : Bool :=
  let w := c.version
  if !c.isLoose then v.compare w != .gt
  else !(w.major < v.major ||
    (v.major == w.major && w.minor < v.minor && c.precision != .noMinor))

/-- From the version of the clause up, with the same major and, if given, minor number. -/
def checkTilde (c : Clause) (v : Version) : Except Mismatch Unit :=
  let w := c.version
  if v.compare w == .lt then c.holdsOr v false "is less than"
  else if w.major == 0 && w.minor == 0 && w.patch == 0 && c.precision != .noMinor &&
      c.precision != .noPatch then .ok ()
  else if v.major != w.major then c.holdsOr v false "does not have same major version as"
  else c.holdsOr v (v.minor == w.minor || c.precision == .noMinor)
    "does not have same major and minor version as"

/-- From the version of the clause up, with the same leftmost number that is not zero. -/
def checkCaret (c : Clause) (v : Version) : Except Mismatch Unit :=
  let w := c.version
  if v.compare w == .lt then c.holdsOr v false "is less than"
  else if 0 < w.major || c.precision == .noMinor then
    c.holdsOr v (v.major == w.major) "does not have same major version as"
  else if 0 < v.major then c.holdsOr v false "does not have same major version as"
  else if 0 < w.minor || c.precision == .noPatch then
    if v.minor == w.minor then .ok ()
    else .error (.relation v "does not have same minor version as" c.written
      ". Expected minor versions to match when constraint major version is 0")
  else if 0 < v.minor then c.holdsOr v false "does not have same minor version as"
  else if w.patch == v.patch then .ok ()
  else .error (.relation v "does not equal" c.written
    ". Expect version and constraint to equal when major and minor versions are 0")

/-- Checks a version; pre-releases satisfy only clauses that name one. -/
def check (c : Clause) (v : Version) : Except Mismatch Unit :=
  if c.version.pre.isEmpty && !v.pre.isEmpty then .error (.prerelease v)
  else match c.operator with
    | .same =>
      if c.isLoose then c.checkTilde v
      else c.holdsOr v (v.compare c.version == .eq) "is not equal to"
    | .different => c.holdsOr v (c.isDifferent v) "is equal to"
    | .above => c.holdsOr v (c.isAbove v) "is less than or equal to"
    | .below => c.holdsOr v (v.compare c.version == .lt) "is greater than or equal to"
    | .atLeast => c.holdsOr v (v.compare c.version != .lt) "is less than"
    | .atMost => c.holdsOr v (c.isAtMost v) "is greater than"
    | .tilde => c.checkTilde v
    | .caret => c.checkCaret v

end Clause

namespace Constraint

/-- The mismatches of an alternative, in the order of its clauses. -/
def mismatches (clauses : List Clause) (v : Version) : List Mismatch :=
  clauses.filterMap fun c => match c.check v with
    | .ok _ => none
    | .error e => some e

/-- No mismatch if some alternative has none, else the first mismatch of the first alternative. -/
def check (c : Constraint) (v : Version) : Except Mismatch Unit :=
  let found := c.alternatives.map (mismatches · v)
  if found.any List.isEmpty then .ok ()
  else match found.flatten with
    | [] => .ok ()
    | e :: _ => .error e

end Constraint

end VhdlStyle.Semver
