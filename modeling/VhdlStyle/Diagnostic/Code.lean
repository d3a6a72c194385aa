import VhdlStyle.Text.Bytes

/-! # Diagnostic codes -/

namespace VhdlStyle

/-- A diagnostic code is a 16-bit number; its thousands name the phase that issues it. -/
structure Code where
  number : UInt16
  deriving DecidableEq, Inhabited

namespace Code

/-! ## Lexical codes -/

def unknownChar : Code := ⟨1001⟩
def unterminatedString : Code := ⟨1002⟩
def unterminatedBlockComment : Code := ⟨1003⟩
def badNumber : Code := ⟨1004⟩
def unterminatedExtIdent : Code := ⟨1005⟩
def badBitString : Code := ⟨1006⟩

/-! ## Syntax codes -/

def unexpectedToken : Code := ⟨2001⟩
def expectIdentifier : Code := ⟨2002⟩
def expectSemicolon : Code := ⟨2003⟩
def expectKeyword : Code := ⟨2004⟩
def unclosedParen : Code := ⟨2005⟩
def unexpectedTopLevel : Code := ⟨2006⟩
def expectExpression : Code := ⟨2007⟩
def endLabelMismatch : Code := ⟨2008⟩
def expectStatement : Code := ⟨2009⟩
def expectDeclaration : Code := ⟨2010⟩

/-! ## Settings codes -/

def unknownKey : Code := ⟨3001⟩
def invalidValue : Code := ⟨3002⟩
def versionPinned : Code := ⟨3003⟩
def decodeFailed : Code := ⟨3004⟩

/-- What a code stands for; numbers without a meaning of their own share one title. -/
def title (c : Code) : Bytes :=
  match c.number.toNat with
  | 1000 => "Lexical information"
  | 1001 => "Unknown character"
  | 1002 => "Unterminated string literal"
  | 1003 => "Unterminated block comment"
  | 1004 => "Malformed numeric literal"
  | 1005 => "Unterminated extended identifier"
  | 1006 => "Malformed bit string literal"
  | 2000 => "Syntax information"
  | 2001 => "Unexpected token"
  | 2002 => "Expected identifier"
  | 2003 => "Expected semicolon"
  | 2004 => "Expected keyword"
  | 2005 => "Unclosed parenthesis"
  | 2006 => "Unexpected token at design unit level"
  | 2007 => "Expected expression"
  | 2008 => "End label does not match unit name"
  | 2009 => "Expected statement"
  | 2010 => "Expected declaration"
  | 3000 => "Configuration information"
  | 3001 => "Unknown configuration key"
  | 3002 => "Invalid configuration value"
  | 3003 => "Formatter version does not satisfy required_version"
  | 3004 => "Configuration file could not be decoded"
  | _ => "Unknown error"

/-- The letters of the phase and the number; numbers outside every phase share one id. -/
def id (c : Code) : Bytes :=
  let n := c.number.toNat
  if 1000 ≤ n && n < 2000 then "LEX" ++ Bytes.ofNat n
  else if 2000 ≤ n && n < 3000 then "SYN" ++ Bytes.ofNat n
  else if 3000 ≤ n && n < 4000 then "CFG" ++ Bytes.ofNat n
  else "E0000"

/-- The id in brackets and the title. -/
def text (c : Code) : Bytes := List.flatten ["[", c.id, "]: ", c.title]

end Code

end VhdlStyle
