import VhdlStyle.Text.Bytes

/-! # Spans

A span is a half-open byte range of one source file. Offsets are 32-bit words. -/

namespace VhdlStyle

/-- The bytes from `start` up to `stop` of the file numbered `file`. -/
structure Span where
  file : UInt32
  start : UInt32
  stop : UInt32
  deriving DecidableEq, Inhabited

namespace Span

/-- The written form `file:start-stop`. -/
def text (s : Span) : Bytes :=
  List.flatten [Bytes.ofNat s.file.toNat, ":", Bytes.ofNat s.start.toNat, "-",
    Bytes.ofNat s.stop.toNat]

/-- The bytes under the span, unless it does not fit the content. -/
def slice? (s : Span) (content : Bytes) : Option Bytes :=
  if s.start > s.stop || s.stop.toNat > content.length then none
  else some ((content.drop s.start.toNat).take (s.stop.toNat - s.start.toNat))

/-- The smallest span that contains both; spans of different files are not merged. -/
def cover (s other : Span) : Span :=
  if s.file != other.file then s
  else { s with start := min s.start other.start, stop := max s.stop other.stop }

/-- The empty span at an offset. -/
def point (file offset : UInt32) : Span := ⟨file, offset, offset⟩

end Span

end VhdlStyle
