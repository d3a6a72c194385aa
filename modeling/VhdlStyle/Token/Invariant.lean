import VhdlStyle.Text.Quoted
import VhdlStyle.Token.Basic
import VhdlStyle.Source.File

/-! # Checking token streams

A token stream belongs to a file when it ends with its only end token at the end of the content,
and every token and trivia is the exact text under its span, in order. -/

namespace VhdlStyle

/-- Why a token stream does not belong to a file. -/
inductive StreamFault where
  | noFile
  | noEnd
  | wrongFile (what : Bytes) (got want : UInt32)
  | outOfBounds (what : Bytes) (span : Span) (length : Nat)
  | backwards (what : Bytes) (span : Span) (previous : UInt32)
  | wrongText (what : Bytes) (text source : Bytes) (span : Span)
  | earlyEnd (position length : Nat)
  | endElsewhere (offset : UInt32) (length : Nat)
  deriving DecidableEq

namespace StreamFault

/-- The fault in words. -/
def message : StreamFault → Bytes
  | .noFile => "nil file"
  | .noEnd => "token stream does not end with EOF"
  | .wrongFile what got want =>
    List.flatten [what, " span file mismatch: got=", Bytes.ofNat got.toNat, " want=",
      Bytes.ofNat want.toNat]
  | .outOfBounds what span length =>
    List.flatten [what, " span ", span.text, " out of bounds (len ", Bytes.ofNat length, ")"]
  | .backwards what span previous =>
    List.flatten [what, " span ", span.text, " starts before previous end ",
      Bytes.ofNat previous.toNat]
  | .wrongText what text source span =>
    List.flatten [what, " text ", Quoted.quote text, " differs from source ",
      Quoted.quote source, " at ", span.text]
  | .earlyEnd position length =>
    List.flatten ["EOF at position ", Bytes.ofNat position, " of ", Bytes.ofNat length]
  | .endElsewhere offset length =>
    List.flatten ["EOF at ", Bytes.ofNat offset.toNat, ", content ends at ", Bytes.ofNat length]

end StreamFault

namespace SourceFile

/-- Checks one piece of text that has to start at `previous` or later; gives the piece's end. -/
def checkPiece (f : SourceFile) (what : Bytes) (span : Span) (text : Bytes) (previous : UInt32) :
    Except StreamFault UInt32 :=
  if span.file != f.id then .error (.wrongFile what span.file f.id)
  else match span.slice? f.content with
    | none => .error (.outOfBounds what span f.content.length)
    | some source =>
      if span.start < previous then .error (.backwards what span previous)
      else if source != text then .error (.wrongText what text source span)
      else .ok span.stop

/-- Checks a token and the trivia in front of it. -/
def checkToken (f : SourceFile) (t : Token) (previous : UInt32) : Except StreamFault UInt32 := do
  let previous ← t.leading.foldlM (fun p tr => f.checkPiece "trivia" tr.span tr.text p) previous
  f.checkPiece t.kind.name t.span t.text previous

/-- Checks the tokens from position `i` of `length` on. -/
def checkFrom (f : SourceFile) (length i : Nat) (previous : UInt32) :
    List Token → Except StreamFault Unit
  | [] => .ok ()
  | t :: rest => do
    if t.kind == .eof && !rest.isEmpty then throw (.earlyEnd i length)
    let stop ← f.checkToken t previous
    f.checkFrom length (i + 1) stop rest

/-- Checks that the tokens are a token stream of the file. -/
def checkTokens (f : SourceFile) (tokens : List Token) : Except StreamFault Unit :=
  match tokens.getLast? with
  | none => .error .noEnd
  | some last =>
    if last.kind != .eof then .error .noEnd
    else do
      f.checkFrom tokens.length 0 0 tokens
      if last.span.stop.toNat != f.content.length then
        throw (.endElsewhere last.span.stop f.content.length)

end SourceFile

end VhdlStyle
