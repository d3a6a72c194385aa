import VhdlStyle.Text.Bytes
import VhdlStyle.Text.CaseMap

/-! # Token kinds and reserved words -/

namespace VhdlStyle

/-- The kinds of tokens. `unknown` stands for numbers of the kind table that name no kind. -/
inductive Kind where
  | invalid
  | eof
  | ident
  | extIdent
  | decimalLit
  | basedLit
  | charLit
  | stringLit
  | bitStringLit
  | amp
  | tick
  | lParen
  | rParen
  | star
  | plus
  | comma
  | minus
  | dot
  | slash
  | colon
  | semicolon
  | lt
  | eq
  | gt
  | bar
  | lBracket
  | rBracket
  | question
  | at
  | caret
  | arrow
  | starStar
  | varAssign
  | notEq
  | gtEq
  | ltEq
  | box
  | cond
  | matchEq
  | matchNotEq
  | matchLt
  | matchLtEq
  | matchGt
  | matchGtEq
  | doubleLt
  | doubleGt
  | kwAbs | kwAccess | kwAfter | kwAlias | kwAll | kwAnd | kwArchitecture | kwArray | kwAssert
  | kwAttribute | kwBegin | kwBlock | kwBody | kwBuffer | kwBus | kwCase | kwComponent
  | kwConfiguration | kwConstant | kwContext | kwDefault | kwDisconnect | kwDownto | kwElse
  | kwElsif | kwEnd | kwEntity | kwExit | kwFile | kwFor | kwForce | kwFunction | kwGenerate
  | kwGeneric | kwGroup | kwGuarded | kwIf | kwImpure | kwIn | kwInertial | kwInout | kwIs
  | kwLabel | kwLibrary | kwLinkage | kwLiteral | kwLoop | kwMap | kwMod | kwNand | kwNew
  | kwNext | kwNor | kwNot | kwNull | kwOf | kwOn | kwOpen | kwOr | kwOthers | kwOut | kwPackage
  | kwParameter | kwPort | kwPostponed | kwProcedure | kwProcess | kwProtected | kwPure | kwRange
  | kwRecord | kwRegister | kwReject | kwRelease | kwRem | kwReport | kwReturn | kwRol | kwRor
  | kwSelect | kwSeverity | kwShared | kwSignal | kwSla | kwSll | kwSra | kwSrl | kwSubtype
  | kwThen | kwTo | kwTransport | kwType | kwUnaffected | kwUnits | kwUntil | kwUse | kwVariable
  | kwWait | kwWhen | kwWhile | kwWith | kwXnor | kwXor
  | unknown
  deriving DecidableEq, Inhabited

namespace Kind

/-! ## The kind table -/

/-- The kinds that are no reserved words, in table order. -/
def plainKinds : List Kind :=
  [.invalid, .eof, .ident, .extIdent, .decimalLit, .basedLit, .charLit, .stringLit,
   .bitStringLit, .amp, .tick, .lParen, .rParen, .star, .plus, .comma, .minus, .dot, .slash,
   .colon, .semicolon, .lt, .eq, .gt, .bar, .lBracket, .rBracket, .question, .at, .caret, .arrow,
   .starStar, .varAssign, .notEq, .gtEq, .ltEq, .box, .cond, .matchEq, .matchNotEq, .matchLt,
   .matchLtEq, .matchGt, .matchGtEq, .doubleLt, .doubleGt]

/-- The reserved words, in table order. -/
def keywords : List Kind :=
  [.kwAbs, .kwAccess, .kwAfter, .kwAlias, .kwAll, .kwAnd, .kwArchitecture, .kwArray, .kwAssert,
   .kwAttribute, .kwBegin, .kwBlock, .kwBody, .kwBuffer, .kwBus, .kwCase, .kwComponent,
   .kwConfiguration, .kwConstant, .kwContext, .kwDefault, .kwDisconnect, .kwDownto, .kwElse,
   .kwElsif, .kwEnd, .kwEntity, .kwExit, .kwFile, .kwFor, .kwForce, .kwFunction, .kwGenerate,
   .kwGeneric, .kwGroup, .kwGuarded, .kwIf, .kwImpure, .kwIn, .kwInertial, .kwInout, .kwIs,
   .kwLabel, .kwLibrary, .kwLinkage, .kwLiteral, .kwLoop, .kwMap, .kwMod, .kwNand, .kwNew,
   .kwNext, .kwNor, .kwNot, .kwNull, .kwOf, .kwOn, .kwOpen, .kwOr, .kwOthers, .kwOut, .kwPackage,
   .kwParameter, .kwPort, .kwPostponed, .kwProcedure, .kwProcess, .kwProtected, .kwPure,
   .kwRange, .kwRecord, .kwRegister, .kwReject, .kwRelease, .kwRem, .kwReport, .kwReturn, .kwRol,
   .kwRor, .kwSelect, .kwSeverity, .kwShared, .kwSignal, .kwSla, .kwSll, .kwSra, .kwSrl,
   .kwSubtype, .kwThen, .kwTo, .kwTransport, .kwType, .kwUnaffected, .kwUnits, .kwUntil, .kwUse,
   .kwVariable, .kwWait, .kwWhen, .kwWhile, .kwWith, .kwXnor, .kwXor]

/-- The numbered kinds; one number without a kind stands before the reserved words. -/
def table : List Kind := plainKinds ++ [.unknown] ++ keywords

/-- The kind with a number. -/
def ofNumber (n : Nat) : Kind := table.getD n .unknown

/-! ## Names and classes -/

/-- The lower-case spelling of a reserved word, empty for every other kind. -/
def keywordText : Kind → Bytes
  | .kwAbs => "abs"
  | .kwAccess => "access"
  | .kwAfter => "after"
  | .kwAlias => "alias"
  | .kwAll => "all"
  | .kwAnd => "and"
  | .kwArchitecture => "architecture"
  | .kwArray => "array"
  | .kwAssert => "assert"
  | .kwAttribute => "attribute"
  | .kwBegin => "begin"
  | .kwBlock => "block"
  | .kwBody => "body"
  | .kwBuffer => "buffer"
  | .kwBus => "bus"
  | .kwCase => "case"
  | .kwComponent => "component"
  | .kwConfiguration => "configuration"
  | .kwConstant => "constant"
  | .kwContext => "context"
  | .kwDefault => "default"
  | .kwDisconnect => "disconnect"
  | .kwDownto => "downto"
  | .kwElse => "else"
  | .kwElsif => "elsif"
  | .kwEnd => "end"
  | .kwEntity => "entity"
  | .kwExit => "exit"
  | .kwFile => "file"
  | .kwFor => "for"
  | .kwForce => "force"
  | .kwFunction => "function"
  | .kwGenerate => "generate"
  | .kwGeneric => "generic"
  | .kwGroup => "group"
  | .kwGuarded => "guarded"
  | .kwIf => "if"
  | .kwImpure => "impure"
  | .kwIn => "in"
  | .kwInertial => "inertial"
  | .kwInout => "inout"
  | .kwIs => "is"
  | .kwLabel => "label"
  | .kwLibrary => "library"
  | .kwLinkage => "linkage"
  | .kwLiteral => "literal"
  | .kwLoop => "loop"
  | .kwMap => "map"
  | .kwMod => "mod"
  | .kwNand => "nand"
  | .kwNew => "new"
  | .kwNext => "next"
  | .kwNor => "nor"
  | .kwNot => "not"
  | .kwNull => "null"
  | .kwOf => "of"
  | .kwOn => "on"
  | .kwOpen => "open"
  | .kwOr => "or"
  | .kwOthers => "others"
  | .kwOut => "out"
  | .kwPackage => "package"
  | .kwParameter => "parameter"
  | .kwPort => "port"
  | .kwPostponed => "postponed"
  | .kwProcedure => "procedure"
  | .kwProcess => "process"
  | .kwProtected => "protected"
  | .kwPure => "pure"
  | .kwRange => "range"
  | .kwRecord => "record"
  | .kwRegister => "register"
  | .kwReject => "reject"
  | .kwRelease => "release"
  | .kwRem => "rem"
  | .kwReport => "report"
  | .kwReturn => "return"
  | .kwRol => "rol"
  | .kwRor => "ror"
  | .kwSelect => "select"
  | .kwSeverity => "severity"
  | .kwShared => "shared"
  | .kwSignal => "signal"
  | .kwSla => "sla"
  | .kwSll => "sll"
  | .kwSra => "sra"
  | .kwSrl => "srl"
  | .kwSubtype => "subtype"
  | .kwThen => "then"
  | .kwTo => "to"
  | .kwTransport => "transport"
  | .kwType => "type"
  | .kwUnaffected => "unaffected"
  | .kwUnits => "units"
  | .kwUntil => "until"
  | .kwUse => "use"
  | .kwVariable => "variable"
  | .kwWait => "wait"
  | .kwWhen => "when"
  | .kwWhile => "while"
  | .kwWith => "with"
  | .kwXnor => "xnor"
  | .kwXor => "xor"
  | _ => []

/-- The kind is a reserved word. -/
def isKeyword (k : Kind) : Bool := !k.keywordText.isEmpty

/-- The name of a kind that is no reserved word. -/
def plainName : Kind → Bytes
  | .invalid => "Invalid"
  | .eof => "EOF"
  | .ident => "Ident"
  | .extIdent => "ExtIdent"
  | .decimalLit => "DecimalLit"
  | .basedLit => "BasedLit"
  | .charLit => "CharLit"
  | .stringLit => "StringLit"
  | .bitStringLit => "BitStringLit"
  | .amp => "Amp"
  | .tick => "Tick"
  | .lParen => "LParen"
  | .rParen => "RParen"
  | .star => "Star"
  | .plus => "Plus"
  | .comma => "Comma"
  | .minus => "Minus"
  | .dot => "Dot"
  | .slash => "Slash"
  | .colon => "Colon"
  | .semicolon => "Semicolon"
  | .lt => "Lt"
  | .eq => "Eq"
  | .gt => "Gt"
  | .bar => "Bar"
  | .lBracket => "LBracket"
  | .rBracket => "RBracket"
  | .question => "Question"
  | .at => "At"
  | .caret => "Caret"
  | .arrow => "Arrow"
  | .starStar => "StarStar"
  | .varAssign => "VarAssign"
  | .notEq => "NotEq"
  | .gtEq => "GtEq"
  | .ltEq => "LtEq"
  | .box => "Box"
  | .cond => "Cond"
  | .matchEq => "MatchEq"
  | .matchNotEq => "MatchNotEq"
  | .matchLt => "MatchLt"
  | .matchLtEq => "MatchLtEq"
  | .matchGt => "MatchGt"
  | .matchGtEq => "MatchGtEq"
  | .doubleLt => "DoubleLt"
  | .doubleGt => "DoubleGt"
  | _ => "Kind(?)"

/-- The name shown to people: reserved words as `Kw(word)`. -/
def name (k : Kind) : Bytes :=
  if k.isKeyword then List.flatten ["Kw(", k.keywordText, ")"] else k.plainName

/-- Numeric, character, string and bit string literals. -/
def isLiteral : Kind → Bool
  | .decimalLit | .basedLit | .charLit | .stringLit | .bitStringLit => true
  | _ => false

/-- Basic and extended identifiers. -/
def isIdent : Kind → Bool
  | .ident | .extIdent => true
  | _ => false

/-- The reserved word that `text` spells; letter case does not matter. -/
def ofKeyword? (text : Bytes) : Option Kind :=
  let lower := CaseMap.toLower text
  keywords.find? (·.keywordText == lower)

end Kind

end VhdlStyle
