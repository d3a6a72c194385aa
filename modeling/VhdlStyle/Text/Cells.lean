import VhdlStyle.Text.Utf8
import VhdlStyle.Text.CellTables

/-! # Display width

How many terminal cells a text takes. A text is cut into clusters, the characters a reader takes
for one; the width of a cluster is that of its first character that takes any cell. -/

namespace VhdlStyle.Cells

/-- A code point lies in one of the ranges. -/
def inRanges (ranges : List (Nat × Nat)) (r : Nat) : Bool :=
  ranges.any fun (lo, hi) => lo ≤ r && r ≤ hi

/-! ## Characters -/

/-- Controls and format characters that take no cell. -/
def hidden : List (Nat × Nat) :=
  [(0x00, 0x1F), (0x7F, 0x9F), (0xAD, 0xAD), (0x70F, 0x70F), (0x180B, 0x180E), (0x200B, 0x200F),
   (0x2028, 0x202E), (0x206A, 0x206F), (0xD800, 0xDFFF), (0xFEFF, 0xFEFF), (0xFFF9, 0xFFFB),
   (0xFFFE, 0xFFFF)]

/-- The cells of one code point. -/
def runeWidth (r : Nat) : Nat :=
  if inRanges hidden r then 0
  else if r < 0x300 then 1
  else if inRanges CellTables.combining r then 0
  else if inRanges CellTables.wide r then 2
  else 1

/-! ## Clusters -/

/-- The classes of characters that decide where a cluster ends. -/
inductive Break where
  | other
  | cr
  | lf
  | control
  | extend
  | joiner
  | regional
  | prepend
  | spacingMark
  | leading
  | vowel
  | trailing
  | syllable
  | closedSyllable
  | pictograph
  deriving DecidableEq, Inhabited

/-- The class of a code point. -/
def breakOf (r : Nat) : Break :=
  if r == 13 then .cr
  else if r == 10 then .lf
  else if r < 0x20 || r == 0x7F then .control
  else if r < 0x80 then .other
  else if r == 0x200D then .joiner
  else if 0x1F1E6 ≤ r && r ≤ 0x1F1FF then .regional
  else if inRanges [(0x1100, 0x115F), (0xA960, 0xA97C)] r then .leading
  else if inRanges [(0x1160, 0x11A7), (0xD7B0, 0xD7C6)] r then .vowel
  else if inRanges [(0x11A8, 0x11FF), (0xD7CB, 0xD7FB)] r then .trailing
  else if 0xAC00 ≤ r && r ≤ 0xD7A3 then
    if (r - 0xAC00) % 28 == 0 then .syllable else .closedSyllable
  else if inRanges CellTables.controls r then .control
  else if inRanges CellTables.extenders r then .extend
  else if inRanges CellTables.spacingMarks r then .spacingMark
  else if inRanges CellTables.prepended r then .prepend
  else if inRanges CellTables.pictographs r then .pictograph
  else .other

/-- A stretch of bytes that is never cut: a character, a malformed sequence, or the bytes from an
incomplete sequence at the end of the text on. -/
structure Piece where
  bytes : Bytes
  cls : Break := .other
  incomplete : Bool := false
  deriving DecidableEq, Inhabited

/-- How many bytes the piece that starts with `b` has: as many as its first byte announces, up to
one that does not continue it. There is none when the text is too short for the announcement. -/
def pieceSize? (b : UInt8) (rest : Bytes) : Option Nat :=
  let announced :=
    if b < 0xC2 then 1 else if b < 0xE0 then 2 else if b < 0xF0 then 3
    else if b < 0xF8 then 4 else 1
  if rest.length + 1 < announced then none
  else some (1 + ((rest.take (announced - 1)).takeWhile Utf8.isContinuation).length)

/-- The pieces of a text after the first `skip` bytes. -/
def piecesFrom : Nat → Bytes → List Piece
  | _, [] => []
  | skip + 1, _ :: rest => piecesFrom skip rest
  | 0, b :: rest =>
    match pieceSize? b rest with
    | none => [⟨b :: rest, .other, true⟩]
    | some n =>
      let g := Utf8.glyph b rest
      let cls := if g.wellFormed then breakOf g.rune else .other
      ⟨(b :: rest).take n, cls, false⟩ :: piecesFrom (n - 1) rest

/-- What is known inside a cluster: the last class, the last two classes that are no extenders,
and how many regional indicators followed one another. -/
structure ClusterState where
  last : Break
  kept : Break := .other
  before : Break := .other
  regionals : Nat := 0
  deriving DecidableEq, Inhabited

/-- A character of class `c` joins the cluster. -/
def joins (s : ClusterState) (c : Break) : Bool :=
  let ends : Break → Bool := fun
    | .control | .cr | .lf => true
    | _ => false
  if c == .lf && s.last == .cr then true
  else if ends c || ends s.last then false
  else if s.last == .leading && [.leading, .vowel, .syllable, .closedSyllable].contains c then true
  else if (s.last == .syllable || s.last == .vowel) && (c == .vowel || c == .trailing) then true
  else if (s.last == .closedSyllable || s.last == .trailing) && c == .trailing then true
  else if c == .extend || c == .joiner || c == .spacingMark then true
  else if s.last == .prepend then true
  else if c == .pictograph && s.last == .joiner && s.before == .pictograph then true
  else c == .regional && s.last == .regional && s.regionals % 2 == 1

/-- The state before the next character is looked at. -/
def ClusterState.step (s : ClusterState) (c : Break) : ClusterState :=
  let s := if s.last == .extend then s else { s with before := s.kept, kept := s.last }
  if c == .regional && s.last == .regional then { s with regionals := s.regionals + 1 } else s

/-- The clusters of pieces, given the cluster begun. -/
def clustersFrom (begun : Bytes) (s : ClusterState) : List Piece → List Bytes
  | [] => [begun]
  | p :: rest =>
    if p.incomplete then [begun ++ p.bytes]
    else
      let s := s.step p.cls
      if joins s p.cls then clustersFrom (begun ++ p.bytes) { s with last := p.cls } rest
      else begun :: clustersFrom p.bytes { last := p.cls } rest

/-- The clusters of a text. -/
def clusters (text : Bytes) : List Bytes :=
  match piecesFrom 0 text with
  | [] => []
  | p :: rest => clustersFrom p.bytes { last := p.cls } rest

/-- The cells of a cluster. -/
def clusterWidth (cluster : Bytes) : Nat :=
  (((Utf8.runes cluster).map runeWidth).find? (0 < ·)).getD 0

/-- The cells of a text. In ASCII every character but the controls takes one. -/
def width (text : Bytes) : Nat :=
  if text.all (· < 0x80) then text.countP fun b => 0x20 ≤ b && b != 0x7F
  else (clusters text).foldl (fun n c => n + clusterWidth c) 0

end VhdlStyle.Cells
