import VhdlStyle.Design.Unit.Parser
import VhdlStyle.Design.Unit.Printer
import VhdlStyle.Design.Outline

/-! # Formatting a source

A source is formatted only when it has no errors. The check of a round trip formats a source, reads
the result back and formats it again: outline and text must both stay. -/

namespace VhdlStyle

/-- The first step of a round trip that broke. -/
inductive RoundTripFault where
  | badInput
  | badOutput
  | outlineChanged
  | textChanged
  deriving DecidableEq, Inhabited

/-- Why a source was not formatted. -/
inductive FormatError where
  | syntaxErrors
  | roundTrip (fault : RoundTripFault)
  deriving DecidableEq, Inhabited

/-- The text of a source with errors. -/
def FormatError.syntaxMessage : Bytes := "source has syntax errors"

/-- The reason in words. -/
def RoundTripFault.reason : RoundTripFault → Bytes
  | .badInput => Bytes.ofString "input: " ++ FormatError.syntaxMessage
  | .badOutput => Bytes.ofString "formatted output does not parse: " ++ FormatError.syntaxMessage
  | .outlineChanged => "unit structure changed after formatting"
  | .textChanged => "formatting is not idempotent"

/-- The message in words. -/
def FormatError.message : FormatError → Bytes
  | .syntaxErrors => syntaxMessage
  | .roundTrip fault => Bytes.ofString "round-trip check failed: " ++ fault.reason

namespace SourceFile

/-- The parsed file, unless the bag holds an error afterwards. -/
def parsed (f : SourceFile) (bag : Bag) : Except FormatError DesignFile × Bag :=
  let (design, bag) := f.parse bag
  (if bag.hasErrors then .error .syntaxErrors else .ok design, bag)

/-- The formatted text; `auto` line ends follow those the file was read with. -/
def format (f : SourceFile) (s : Settings) (bag : Bag) : Except FormatError Bytes × Bag :=
  let (design, bag) := f.parsed bag
  (design.map fun d => d.render s (s.newline f.flags.hadCrlf), bag)

/-- What is formatted depends on the flags of a file only through the line ends it was read with. -/
theorem format_eq (f : SourceFile) (s : Settings) (bag : Bag) :
    (f.format s bag).1 = (f.parsed bag).1.map fun d => d.render s (s.newline f.flags.hadCrlf) := rfl

end SourceFile

/-- The text of a parsed file; `auto` line ends are LF. -/
def DesignFile.format (d : DesignFile) (s : Settings) : Bytes := d.render s (s.newline false)

namespace RoundTrip

/-- Room for the diagnostics of one pass. -/
def diagnosticLimit : Int := 100

/-- One pass over a text: the formatted text and the outline of the units. -/
def pass (path source : Bytes) (s : Settings) : Except FormatError (Bytes × Bytes) :=
  ((SourceFile.ofBytes path source).parsed (Bag.ofLimit diagnosticLimit)).1.map
    fun design => (design.format s, design.outline)

/-- Formats twice and compares the passes; the first broken step is the answer. -/
def check (source : Bytes) (s : Settings) : Except RoundTripFault Unit :=
  match pass "input.vhd" source s with
  | .error _ => .error .badInput
  | .ok (first, outline) =>
    match pass "formatted.vhd" first s with
    | .error _ => .error .badOutput
    | .ok (second, outline') =>
      if outline != outline' then .error .outlineChanged
      else if first != second then .error .textChanged
      else .ok ()

end RoundTrip

end VhdlStyle
