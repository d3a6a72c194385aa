import VhdlStyle.Design.Sequential.Parser
import VhdlStyle.Design.Decl.Basic

/-! # Reading declarations

The declarations inside a subprogram body are read by the parameter `part`, so that each level of
nesting is one unfolding. -/

namespace VhdlStyle

open Parse

/-- Reads a use clause. -/
def UseClause.parse : Parse UseClause := do
  let trivia ← rowTrivia
  skip
  let names ← sepBy .comma Expr.parseSelectedName
  semicolon
  return ⟨← withInline trivia, names⟩

/-! ## Type definitions -/

namespace TypeDef

/-- Reads an enumeration literal. -/
def parseLiteral : Parse (Option Leaf) := do
  match ← accept? .charLit with
  | some t => return some (Expr.leafOf t)
  | none => return (← ident?).map fun name => ⟨.ident, name⟩

/-- Reads a unit of a physical type. -/
def parseUnit : Parse (Option PhysicalUnit) := do
  let trivia ← rowTrivia
  let name ← ident
  let value ← if ← accept .eq then pure (some (← Expr.parse)) else pure none
  semicolon
  return some ⟨← withInline trivia, name, value⟩

/-- Reads the units of a physical type, if they follow; a label after them is not kept. -/
def parseUnits : Parse (List PhysicalUnit) := do
  if !(← accept .kwUnits) then return []
  let units ← many [.kwEnd] parseUnit
  keyword .kwEnd
  keyword .kwUnits
  let _ ← optLabel
  return units

/-- Reads a row of a record. -/
def parseField : Parse (Option RecordField) := do
  let trivia ← rowTrivia
  let names ← identList
  expect_ .colon .unexpectedToken "expected ':' after field names"
  let indication ← SubtypeIndication.parse
  semicolon
  return some ⟨← withInline trivia, names, indication⟩

/-- Reads a type definition. -/
def parse : Parse (Option TypeDef) := do
  match ← kind with
  | .lParen =>
    skip
    let literals ← sepBySome .comma parseLiteral
    expect_ .rParen .unclosedParen "expected ')' to close enumeration"
    return some (.enum literals)
  | .kwRange =>
    skip
    let r ← Expr.parseRange
    return some (.range r (← parseUnits))
  | .kwArray =>
    skip
    expect_ .lParen .unexpectedToken "expected '(' after 'array'"
    let indexes ← sepBy .comma Expr.parseRange
    expect_ .rParen .unclosedParen "expected ')' to close index list"
    keyword .kwOf
    return some (.array indexes (← SubtypeIndication.parse))
  | .kwRecord =>
    skip
    let fields ← many [.kwEnd] parseField
    let tail ← Parse.tail
    keyword .kwEnd
    keyword .kwRecord
    return some (.record fields (← optLabel) tail)
  | .kwAccess =>
    skip
    return some (.access (← SubtypeIndication.parse))
  | _ =>
    faultGot .unexpectedToken "expected a type definition"
    return none

end TypeDef

/-! ## Subprogram headers -/

/-- Reads the header of a function or procedure. The word `parameter` is allowed and not kept. -/
def SubprogramSpec.parse : Parse SubprogramSpec := do
  let purity ← if ← isAtAny [.kwPure, .kwImpure] then do pure (← advance).text else pure []
  let kind ← if ← isAtAny [.kwFunction, .kwProcedure] then do pure (← advance).text
    else do
      fault .expectKeyword "expected 'function' or 'procedure'"
      pure []
  let name ← if ← isAt .stringLit then do pure (← advance).text else ident
  let _ ← accept .kwParameter
  let (params, tail) ← if ← accept .lParen then do
      let params ← rows .semicolon InterfaceItem.parsePort InterfaceItem.setInline
      let tail ← Parse.tail
      expect_ .rParen .unclosedParen "expected ')' to close parameter list"
      pure (params, tail)
    else pure ([], [])
  let result ← if ← accept .kwReturn then pure (some (← Expr.parseTypeMark)) else pure none
  return { kind, purity, name, params, tail, result }

namespace Decl

/-! ## Declarations without nesting -/

/-- Reads the words in front of an object declaration. -/
def parseObjectClass : Parse (ObjectClass × Bytes) := do
  let word ← advance
  match word.kind with
  | .kwConstant => return (.constant, word.text)
  | .kwVariable => return (.variable_, word.text)
  | .kwShared =>
    match ← expect .kwVariable .expectKeyword "expected 'variable' after 'shared'" with
    | some t => return (.shared, List.flatten [word.text, " ", t.text])
    | none => return (.shared, word.text)
  | _ => return (.signal, word.text)

/-- Reads an object declaration. -/
def parseObject (trivia : RowTrivia) : Parse Decl := do
  let (objectClass, word) ← parseObjectClass
  let names ← identList
  expect_ .colon .unexpectedToken "expected ':' after object names"
  let indication ← SubtypeIndication.parse
  let default ← parseDefault
  semicolon
  return .object (← withInline trivia) objectClass word names indication default

/-- Reads a type declaration. -/
def parseType (trivia : RowTrivia) : Parse Decl := do
  skip
  let name ← ident
  let definition ← if ← accept .kwIs then TypeDef.parse else pure none
  semicolon
  return .type (← withInline trivia) name definition

/-- Reads a subtype declaration. -/
def parseSubtype (trivia : RowTrivia) : Parse Decl := do
  skip
  let name ← ident
  keyword .kwIs
  let indication ← SubtypeIndication.parse
  semicolon
  return .subtype (← withInline trivia) name indication

/-- Reads an alias declaration. -/
def parseAlias (trivia : RowTrivia) : Parse Decl := do
  skip
  let name ← ident
  let indication ← if ← accept .colon then pure (some (← SubtypeIndication.parse)) else pure none
  keyword .kwIs
  let target ← Expr.parseName
  semicolon
  return .alias (← withInline trivia) name indication target

/-- Reads a component declaration. -/
def parseComponent (trivia : RowTrivia) : Parse Decl := do
  skip
  let name ← ident
  let _ ← accept .kwIs
  let generics ← InterfaceList.parseGenerics
  let ports ← InterfaceList.parsePorts
  let tail ← Parse.tail
  let endLabel ← endClause name [.kwComponent]
  return .component (← withInline trivia) name generics ports endLabel tail

/-- Reads an attribute declaration. -/
def parseAttribute (trivia : RowTrivia) : Parse Decl := do
  skip
  let name ← ident
  skip
  let mark ← Expr.parseTypeMark
  semicolon
  return .attribute (← withInline trivia) name mark

/-- Reads an entity of an attribute specification. -/
def parseEntity : Parse Expr := do
  if ← isAtAny [.kwAll, .kwOthers] then return .leaf (Expr.leafOf (← advance))
  Expr.parseSelectedName

/-- Reads an attribute specification. -/
def parseAttributeSpec (trivia : RowTrivia) : Parse Decl := do
  skip
  let name ← ident
  keyword .kwOf
  let entities ← sepBy .comma parseEntity
  expect_ .colon .unexpectedToken "expected ':' after entity list"
  let entityClass ← if (← current).isKeyword then do pure (← advance).text
    else do
      faultGot .expectKeyword "expected an entity class"
      pure []
  keyword .kwIs
  let value ← Expr.parse
  semicolon
  return .attributeSpec (← withInline trivia) name entities entityClass value

/-- Reads tokens up to a semicolon outside parentheses. -/
def parseRawN : Nat → Int → Parse (List RawToken)
  | 0, _ => giveUp []
  | fuel + 1, depth => do
    let k ← kind
    if k == .eof || (depth == 0 && k == .semicolon) then return []
    let depth := match k with
      | .lParen => depth + 1
      | .rParen => depth - 1
      | _ => depth
    let t ← advance
    return ⟨t.text, t.isKeyword, t.isIdent⟩ :: (← parseRawN fuel depth)

/-- Reads a declaration that is kept as its tokens. -/
def parseRaw (trivia : RowTrivia) : Parse Decl := do
  let tokens ← fun s => parseRawN s.size 0 s
  semicolon
  return .raw (← withInline trivia) tokens

/-- Skips to the end of a protected type. -/
def skipProtectedN : Nat → Parse Unit
  | 0 => giveUp ()
  | fuel + 1 => do
    if ← isAt .eof then return ()
    else if (← isAt .kwEnd) && (← kindAhead 1) == .kwProtected then resyncTo []
    else
      skip
      skipProtectedN fuel

/-- Reads a declaration that starts with `type`; protected types are refused. -/
def parseTypeOrRaw : Parse (Option Decl) := do
  match ← kindAhead 3 with
  | .kwFile => some <$> parseRaw (← rowTrivia)
  | .kwProtected =>
    fault .expectDeclaration "protected types are not supported"
    fun s => skipProtectedN s.size s
    return none
  | _ => some <$> parseType (← rowTrivia)

/-! ## One level of nesting -/

section

variable (part : Parse (List Decl))

/-- Reads a subprogram declaration or body. -/
def parseSubprogram (trivia : RowTrivia) : Parse Decl := do
  let spec ← SubprogramSpec.parse
  if !(← accept .kwIs) then
    semicolon
    return .subprogram (← withInline trivia) spec
  let decls ← part
  let declTail ← Parse.tail
  keyword .kwBegin
  let stmts ← SeqStmt.parseBlock
  let tail ← Parse.tail
  keyword .kwEnd
  if ← isAtAny [.kwFunction, .kwProcedure] then skip
  let endLabel ← if ← isAtAny [.ident, .extIdent, .stringLit] then do pure (← advance).text
    else pure []
  checkEndLabel endLabel spec.name
  semicolon
  return .subprogramBody (← withInline trivia) spec decls declTail stmts endLabel tail

/-- Reads a declaration; nothing comes of one that cannot be read. -/
def parseWith : Parse (Option Decl) := do
  match ← kind with
  | .kwSignal | .kwConstant | .kwVariable | .kwShared => some <$> parseObject (← rowTrivia)
  | .kwType => parseTypeOrRaw
  | .kwSubtype => some <$> parseSubtype (← rowTrivia)
  | .kwAlias => some <$> parseAlias (← rowTrivia)
  | .kwComponent => some <$> parseComponent (← rowTrivia)
  | .kwAttribute =>
    if (← kindAhead 2) == .colon then some <$> parseAttribute (← rowTrivia)
    else some <$> parseAttributeSpec (← rowTrivia)
  | .kwFunction | .kwProcedure | .kwPure | .kwImpure =>
    some <$> parseSubprogram part (← rowTrivia)
  | .kwUse => return some (.use (← UseClause.parse))
  | .kwFile | .kwGroup | .kwDisconnect | .kwFor => some <$> parseRaw (← rowTrivia)
  | _ =>
    faultGot .expectDeclaration "expected a declaration"
    resyncTo [.kwBegin, .kwEnd]
    return none

end

/-! ## All levels -/

/-- Reads declarations, at most `n` levels deep. -/
def parsePartN : Nat → Parse (List Decl)
  | 0 => giveUp []
  | n + 1 => many [.kwBegin, .kwEnd] (parseWith (parsePartN n))

/-- Reads declarations up to `begin` or `end`. -/
def parsePart : Parse (List Decl) := fun s => parsePartN s.size s

/-- The words that start a declaration in a generate body. -/
def starts : List Kind :=
  [.kwSignal, .kwConstant, .kwVariable, .kwShared, .kwFile, .kwType, .kwSubtype, .kwAlias,
   .kwComponent, .kwAttribute, .kwFunction, .kwProcedure, .kwPure, .kwImpure, .kwUse, .kwGroup,
   .kwDisconnect]

end Decl

end VhdlStyle
