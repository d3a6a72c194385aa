import VhdlStyle.Design.Concurrent.Parser
import VhdlStyle.Design.Unit.Basic
import VhdlStyle.Token.Lexer

/-! # Reading design units and files -/

namespace VhdlStyle

open Parse

/-- Reads a library clause. -/
def ContextItem.parseLibrary : Parse ContextItem := do
  let trivia ← rowTrivia
  skip
  let names ← identList
  semicolon
  return .library (← withInline trivia) names

namespace DesignUnit

/-- Reads what closes a unit: the comments before its end, the end and the comment behind it. -/
def close (trivia : RowTrivia) (context : List ContextItem) (name : Bytes) (body : UnitBody)
    (words : List Kind) : Parse DesignUnit := do
  let tail ← Parse.tail
  let endLabel ← endClause name words
  return { trivia := ← withInline trivia, context, name, body, endLabel, tail }

/-- Reads an entity. -/
def parseEntity (context : List ContextItem) : Parse DesignUnit := do
  let trivia ← rowTrivia
  skip
  let name ← ident
  keyword .kwIs
  let generics ← InterfaceList.parseGenerics
  let ports ← InterfaceList.parsePorts
  let decls ← Decl.parsePart
  let hasBegin ← accept .kwBegin
  let stmts ← if hasBegin then ConcStmt.parseBlock else pure []
  close trivia context name (.entity generics ports decls hasBegin stmts) [.kwEntity]

/-- Reads an architecture. -/
def parseArchitecture (context : List ContextItem) : Parse DesignUnit := do
  let trivia ← rowTrivia
  skip
  let name ← ident
  keyword .kwOf
  let entityName ← ident
  keyword .kwIs
  let decls ← Decl.parsePart
  let declTail ← Parse.tail
  keyword .kwBegin
  let stmts ← ConcStmt.parseBlock
  close trivia context name (.architecture entityName decls declTail stmts) [.kwArchitecture]

/-- Reads a package. -/
def parsePackage (context : List ContextItem) : Parse DesignUnit := do
  let trivia ← rowTrivia
  skip
  let name ← ident
  keyword .kwIs
  let generics ← InterfaceList.parseGenerics
  let decls ← Decl.parsePart
  close trivia context name (.package generics decls) [.kwPackage]

/-- Reads a package body. -/
def parsePackageBody (context : List ContextItem) : Parse DesignUnit := do
  let trivia ← rowTrivia
  skip
  skip
  let name ← ident
  keyword .kwIs
  let decls ← Decl.parsePart
  close trivia context name (.packageBody decls) [.kwPackage, .kwBody]

end DesignUnit

namespace DesignFile

/-- The words that start a context item or a design unit. -/
def starts : List Kind := [.kwLibrary, .kwUse, .kwEntity, .kwArchitecture, .kwPackage]

/-- Skips to a word that starts something at the start of a line. -/
def resyncN : Nat → Parse Unit
  | 0 => giveUp ()
  | fuel + 1 => do
    let s ← get
    if s.kind == .eof || (starts.contains s.kind && s.atLineStart) then return ()
    skip
    resyncN fuel

/-- One step at the outermost level, given the context items read since the last unit: the unit
read, if any, and the context items that wait now. -/
def parseStep (context : List ContextItem) : Parse (Option DesignUnit × List ContextItem) := do
  match ← kind with
  | .kwLibrary => return (none, context ++ [← ContextItem.parseLibrary])
  | .kwUse => return (none, context ++ [.use (← UseClause.parse)])
  | .kwEntity => return (some (← DesignUnit.parseEntity context), [])
  | .kwArchitecture => return (some (← DesignUnit.parseArchitecture context), [])
  | .kwPackage =>
    if (← kindAhead 1) == .kwBody then
      return (some (← DesignUnit.parsePackageBody context), [])
    else return (some (← DesignUnit.parsePackage context), [])
  | _ =>
    faultGot .unexpectedTopLevel "expected a design unit"
    fun s => resyncN s.size s
    return (none, context)

/-- Reads units to the end of the source; the context items left over come with them. -/
def parseUnitsN : Nat → List ContextItem → Parse (List DesignUnit × List ContextItem)
  | 0, context => giveUp ([], context)
  | fuel + 1, context => do
    if ← isAt .eof then return ([], context)
    let before := (← get).size
    let (unit, context) ← parseStep context
    if (← get).size == before then skip
    let (units, context) ← parseUnitsN fuel context
    return (unit.toList ++ units, context)

/-- Reads a whole source. -/
def parseTokens : Parse DesignFile := do
  let (units, context) ← fun s => parseUnitsN s.size [] s
  if !context.isEmpty then
    fault .unexpectedTopLevel "context clause is not followed by a design unit"
  return ⟨units, ← Parse.tail⟩

end DesignFile

namespace SourceFile

/-- Lexes and parses a file. Diagnostics go into the bag, those of lexing first; from `maxErrors`
errors of parsing on, errors are silent. -/
def parseWith (f : SourceFile) (bag : Bag) (maxErrors : Nat) : DesignFile × Bag :=
  let (tokens, faults) := f.tokens
  let (design, s) := DesignFile.parseTokens.run
    { rest := tokens, maxErrors, bag := bag.addAll faults }
  (design, s.bag)

/-- Lexes and parses a file; errors beyond the bag's limit are silent. -/
def parse (f : SourceFile) (bag : Bag) : DesignFile × Bag := f.parseWith bag bag.limit

end SourceFile

end VhdlStyle
