import VhdlStyle.Source.Span
import VhdlStyle.Source.Path

/-! # Source files

A loaded file carries no byte order mark and only line feeds; its flags remember what the bytes
looked like before. A `FileTable` numbers the files of a run in the order they were added. -/

namespace VhdlStyle

/-- What is known about where a file came from and how its bytes looked. -/
structure FileFlags where
  inMemory : Bool := false
  hadMark : Bool := false
  hadCrlf : Bool := false
  deriving DecidableEq, Inhabited

/-- One loaded source file. -/
structure SourceFile where
  id : UInt32
  path : Bytes
  content : Bytes
  flags : FileFlags
  deriving DecidableEq, Inhabited

/-- A position as people count it: both numbers start at one, columns count bytes. -/
structure LineCol where
  line : UInt32
  col : UInt32
  deriving DecidableEq, Inhabited

namespace Source

/-- Every CR LF pair becomes one LF; a CR on its own stays. -/
def unifyNewlines : Bytes → Bytes
  | [] => []
  | Bytes.cr :: Bytes.lf :: rest => Bytes.lf :: unifyNewlines rest
  | b :: rest => b :: unifyNewlines rest

/-- Some CR is directly followed by LF. -/
def hasCrlf : Bytes → Bool
  | [] => false
  | Bytes.cr :: Bytes.lf :: _ => true
  | _ :: rest => hasCrlf rest

/-- The UTF-8 byte order mark. -/
def byteOrderMark : Bytes := [0xEF, 0xBB, 0xBF]

/-- The offsets of the line feeds of `content`, the first byte counted as `offset`. -/
def lineFeeds (offset : Nat) : Bytes → List UInt32
  | [] => []
  | b :: rest =>
    if b == Bytes.lf then UInt32.ofNat offset :: lineFeeds (offset + 1) rest
    else lineFeeds (offset + 1) rest

/-- The place of the first of some sorted offsets that is not below `offset`, if it is not before
`lo` and not behind `hi`: the middle one tells which half goes on. -/
def placeBetween (feeds : Array UInt32) (offset : UInt32) (lo hi : Nat) : Nat :=
  if lo < hi then
    let middle := (lo + hi) / 2
    if feeds.getD middle 0 < offset then placeBetween feeds offset (middle + 1) hi
    else placeBetween feeds offset lo middle
  else lo
termination_by hi - lo

/-- The place of the first of some sorted offsets that is not below `offset`. -/
def placeOf (feeds : Array UInt32) (offset : UInt32) : Nat :=
  placeBetween feeds offset 0 feeds.size

end Source

namespace SourceFile

/-- The offsets of the line feeds. -/
def lines (f : SourceFile) : List UInt32 := Source.lineFeeds 0 f.content

/-- The line terminator the file used before it was loaded. -/
def newline (f : SourceFile) : Bytes := if f.flags.hadCrlf then "\r\n" else "\n"

/-- The position of an offset: the line counts the line feeds strictly before it, the column the
bytes since the last of them, as 32-bit words. -/
def lineCol (f : SourceFile) (offset : UInt32) : LineCol :=
  let feeds := f.lines.toArray
  let line := Source.placeOf feeds offset
  let start := if line = 0 then 0 else feeds.getD (line - 1) 0 + 1
  ⟨UInt32.ofNat (line + 1), offset - start + 1⟩

end SourceFile

/-- The files of a run; a file's number is its place in the table. -/
structure FileTable where
  files : List SourceFile := []
  deriving Inhabited

namespace FileTable

/-- The number the next file gets. -/
def nextId (t : FileTable) : UInt32 := UInt32.ofNat t.files.length

/-- Adds content as it is. The path is cleaned. -/
def add (t : FileTable) (path content : Bytes) (flags : FileFlags) : SourceFile × FileTable :=
  let file : SourceFile := ⟨t.nextId, Path.clean path, content, flags⟩
  (file, ⟨t.files ++ [file]⟩)

/-- Adds content with its byte order mark dropped and its line ends unified. -/
def load (t : FileTable) (path content : Bytes) (flags : FileFlags) : SourceFile × FileTable :=
  let (body, mark) := match Bytes.dropPrefix? Source.byteOrderMark content with
    | some body => (body, true)
    | none => (content, false)
  t.add path (Source.unifyNewlines body)
    { flags with
      hadMark := flags.hadMark || mark
      hadCrlf := flags.hadCrlf || Source.hasCrlf body }

/-- `load` for content that did not come from a disk. -/
def loadVirtual (t : FileTable) (path content : Bytes) : SourceFile × FileTable :=
  t.load path content { inMemory := true }

/-- The file with a number. -/
def get? (t : FileTable) (id : UInt32) : Option SourceFile := t.files[id.toNat]?

/-- The positions of both ends of a span, if its file is in the table. -/
def resolve? (t : FileTable) (s : Span) : Option (LineCol × LineCol) :=
  (t.get? s.file).map fun f => (f.lineCol s.start, f.lineCol s.stop)

end FileTable

/-- A single in-memory file, numbered zero. -/
def SourceFile.ofBytes (path content : Bytes) : SourceFile :=
  (FileTable.loadVirtual {} path content).1

end VhdlStyle
