import VhdlStyle.Design.Expr.Parser
import VhdlStyle.Design.Interface.Basic

/-! # Reading subtypes, interface lists and maps -/

namespace VhdlStyle

open Parse

/-- Reads index ranges in parentheses. -/
def Constraint.parseIndex : Parse Constraint := do
  skip
  let ranges ← sepBy .comma Expr.parseRange
  expect_ .rParen .unclosedParen "expected ')' to close constraint"
  return .index ranges

/-- Reads a subtype indication; a name directly after a type mark makes the mark a resolution
function. -/
def SubtypeIndication.parse : Parse SubtypeIndication := do
  let first ← Expr.parseTypeMark
  let (resolution, mark) ← if ← isAtAny [.ident, .extIdent] then do
      pure (some first, ← Expr.parseTypeMark)
    else pure (none, first)
  match ← kind with
  | .lParen => return ⟨resolution, mark, some (← Constraint.parseIndex)⟩
  | .kwRange =>
    skip
    return ⟨resolution, mark, some (.range (← Expr.parseRange))⟩
  | _ => return ⟨resolution, mark, none⟩

/-- Reads a default value, if one follows. -/
def parseDefault : Parse (Option Expr) := do
  if ← accept .varAssign then return some (← Expr.parse) else return none

namespace InterfaceItem

/-- Reads a generic. The mode `in` is allowed and not kept. -/
def parseGeneric (trivia : RowTrivia) : Parse InterfaceItem := do
  let objectClass := match ← accept? .kwConstant with
    | some t => t.text
    | none => []
  let names ← identList
  expect_ .colon .unexpectedToken "expected ':' after generic names"
  let _ ← accept .kwIn
  let indication ← SubtypeIndication.parse
  let default ← parseDefault
  return { trivia, objectClass, names, indication, default }

/-- Reads a port or a parameter. The word `bus` is allowed and not kept. -/
def parsePort (trivia : RowTrivia) : Parse InterfaceItem := do
  let objectClass ←
    if ← isAtAny [.kwSignal, .kwVariable, .kwConstant, .kwFile] then do pure (← advance).text
    else pure []
  let names ← identList
  expect_ .colon .unexpectedToken "expected ':' after port names"
  let mode ←
    if ← isAtAny [.kwIn, .kwOut, .kwInout, .kwBuffer, .kwLinkage] then do pure (← advance).text
    else pure []
  let indication ← SubtypeIndication.parse
  let _ ← accept .kwBus
  let default ← parseDefault
  return { trivia, objectClass, names, mode, indication, default }

/-- The item with the comment behind it. -/
def setInline (item : InterfaceItem) (inline : Bytes) : InterfaceItem :=
  { item with trivia := { item.trivia with inline := inline } }

end InterfaceItem

namespace InterfaceList

/-- Reads a clause from its opening word, `word`, to its semicolon. -/
def parseClause (word : Bytes) (row : RowTrivia → Parse InterfaceItem) : Parse InterfaceList := do
  skip
  expect_ .lParen .unexpectedToken (List.flatten ["expected '(' after '", word, "'"])
  let items ← rows .semicolon row InterfaceItem.setInline
  let tail ← Parse.tail
  expect_ .rParen .unclosedParen (List.flatten ["expected ')' to close ", word, " clause"])
  semicolon
  return ⟨items, tail⟩

/-- Reads a generic clause, if one follows. -/
def parseGenerics : Parse (Option InterfaceList) := do
  if ← isAt .kwGeneric then return some (← parseClause "generic" InterfaceItem.parseGeneric)
  else return none

/-- Reads a port clause, if one follows. -/
def parsePorts : Parse (Option InterfaceList) := do
  if ← isAt .kwPort then return some (← parseClause "port" InterfaceItem.parsePort)
  else return none

end InterfaceList

namespace MapList

/-- Reads a row of a map. -/
def parseItem (trivia : RowTrivia) : Parse MapItem :=
  return ⟨trivia, ← Expr.parseAssociation⟩

/-- The row with the comment behind it. -/
def setInline (item : MapItem) (inline : Bytes) : MapItem :=
  { item with trivia := { item.trivia with inline := inline } }

/-- Reads a generic or port map. -/
def parse : Parse MapList := do
  skip
  keyword .kwMap
  expect_ .lParen .unexpectedToken "expected '(' after 'map'"
  let items ← rows .comma parseItem setInline
  let tail ← Parse.tail
  expect_ .rParen .unclosedParen "expected ')' to close association list"
  return ⟨items, tail⟩

end MapList

end VhdlStyle
