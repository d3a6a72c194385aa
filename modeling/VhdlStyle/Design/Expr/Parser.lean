import VhdlStyle.Design.Parse
import VhdlStyle.Design.Expr.Basic

/-! # Reading expressions

Operators bind, from weak to strong: logical, relational, shift, adding with an optional sign,
multiplying, and the factor level with `**`, `abs`, `not`, `??` and the logical reductions.
Relational and shift operators do not chain. Everything that nests inside parentheses or after
`range` is read by the parameter `nested`, so that each level of nesting is one unfolding. -/

namespace VhdlStyle.Expr

open Parse

/-- The leaf of a token. -/
def leafOf (t : Token) : Leaf := ⟨t.kind, t.text⟩

/-! ## Names without arguments -/

/-- Reads the name of an attribute: an identifier or a reserved word. -/
def parseAttributeName : Parse Leaf := do
  let t ← current
  if t.isIdent || t.isKeyword then
    skip
    return leafOf t
  faultGot .expectIdentifier "expected attribute name"
  return ⟨.invalid, []⟩

/-- Reads suffixes of a selected name. -/
def parseSelectionsN : Nat → Expr → Parse Expr
  | 0, x => giveUp x
  | fuel + 1, x => do
    if !(← accept .dot) then return x
    let t ← current
    if !t.isAny [.ident, .extIdent, .kwAll] then
      faultGot .expectIdentifier "expected name after '.'"
      return x
    skip
    parseSelectionsN fuel (.selected x (leafOf t))

/-- Reads a name of identifiers parted by dots; the last may be `all`. -/
def parseSelectedName : Parse Expr := do
  let name ← Parse.ident
  fun s => parseSelectionsN s.size (.ident name) s

/-- Reads the attributes of a type mark. -/
def parseMarkAttributesN : Nat → Expr → Parse Expr
  | 0, x => giveUp x
  | fuel + 1, x => do
    if (← isAt .tick) && (← kindAhead 1) != .lParen then
      skip
      parseMarkAttributesN fuel (.attribute x (← parseAttributeName))
    else return x

/-- Reads a type mark: a selected name, possibly with attributes. -/
def parseTypeMark : Parse Expr := do
  let x ← parseSelectedName
  fun s => parseMarkAttributesN s.size x s

/-! ## One level of nesting -/

section

variable (nested : Parse Expr)

/-- Reads a list element. -/
def parseAssoc : Parse Assoc := do
  let x ← nested
  if !(← isAtAny [.bar, .arrow]) then return ⟨[], x⟩
  let more ← fun s => afterEachN .bar nested s.size s
  expect_ .arrow .unexpectedToken "expected '=>'"
  return ⟨x :: more, ← nested⟩

/-- Reads list elements parted by commas; a comma may stand before the closing parenthesis. -/
def parseArgsN : Nat → Parse (List Assoc)
  | 0 => giveUp []
  | fuel + 1 => do
    if ← isAtAny [.rParen, .eof] then return []
    let x ← parseAssoc nested
    if !(← accept .comma) then return [x]
    return x :: (← parseArgsN fuel)

/-- Reads a list in parentheses. -/
def parseArgs : Parse (List Assoc) := do
  skip
  let args ← fun s => parseArgsN nested s.size s
  expect_ .rParen .unclosedParen "expected ')'"
  return args

/-- Reads an expression in parentheses or an aggregate: one element without choices is not an
aggregate. -/
def parseParenOrAggregate : Parse Expr := do
  match ← parseArgs nested with
  | [.mk [] x] => return .paren x
  | elems => return .aggregate elems

/-- Reads the suffixes of a name: selections, arguments, attributes and qualified parts. -/
def parseSuffixesN : Nat → Expr → Parse Expr
  | 0, x => giveUp x
  | fuel + 1, x => do
    match ← kind with
    | .dot =>
      skip
      let t ← current
      if !t.isAny [.ident, .extIdent, .kwAll, .charLit, .stringLit] then
        faultGot .expectIdentifier "expected suffix after '.'"
        return x
      skip
      parseSuffixesN fuel (.selected x (leafOf t))
    | .lParen => parseSuffixesN fuel (.call x (← parseArgs nested))
    | .tick =>
      if (← kindAhead 1) == .lParen then
        skip
        parseSuffixesN fuel (.qualified x (← parseParenOrAggregate nested))
      else
        skip
        parseSuffixesN fuel (.attribute x (← parseAttributeName))
    | _ => return x

/-- Reads the suffixes of a name. -/
def parseSuffixes (x : Expr) : Parse Expr := fun s => parseSuffixesN nested s.size x s

/-- Reads the target of an assignment or a procedure call. -/
def parseNameWith : Parse Expr := do
  if ← isAt .lParen then parseParenOrAggregate nested
  else if ← isAtAny [.ident, .extIdent, .stringLit] then
    let t ← advance
    parseSuffixes nested (.leaf (leafOf t))
  else
    faultGot .expectIdentifier "expected name"
    return .missing

/-- Reads a primary that is no allocator. A number followed by an identifier is a physical
literal. -/
def parseOperand : Parse Expr := do
  let t ← current
  match t.kind with
  | .ident | .extIdent | .stringLit =>
    skip
    parseSuffixes nested (.leaf (leafOf t))
  | .decimalLit | .basedLit =>
    skip
    match ← accept? .ident with
    | some unit => return .leaf ⟨t.kind, List.flatten [t.text, " ", unit.text]⟩
    | none => return .leaf (leafOf t)
  | .charLit | .bitStringLit | .kwOthers | .kwOpen | .kwNull | .kwAll | .kwUnaffected =>
    skip
    return .leaf (leafOf t)
  | .lParen => parseParenOrAggregate nested
  | _ =>
    faultGot .expectExpression "expected expression"
    return .missing

/-- Reads the words `new` in front of an operand. -/
def parseAllocatorsN : Nat → Parse (List Leaf)
  | 0 => giveUp []
  | fuel + 1 => do
    match ← accept? .kwNew with
    | none => return []
    | some t => return leafOf t :: (← parseAllocatorsN fuel)

/-- Reads a primary. -/
def parsePrimary : Parse Expr := do
  let allocators ← fun s => parseAllocatorsN s.size s
  let x ← parseOperand nested
  return allocators.foldr Expr.unary x

/-- The logical operators. -/
def logicalOps : List Kind := [.kwAnd, .kwOr, .kwXor, .kwNand, .kwNor, .kwXnor]

/-- The relational operators. -/
def relationalOps : List Kind :=
  [.eq, .notEq, .lt, .ltEq, .gt, .gtEq, .matchEq, .matchNotEq, .matchLt, .matchLtEq, .matchGt,
   .matchGtEq]

/-- The shift operators. -/
def shiftOps : List Kind := [.kwSll, .kwSrl, .kwSla, .kwSra, .kwRol, .kwRor]

/-- The adding operators. -/
def addingOps : List Kind := [.plus, .minus, .amp]

/-- The multiplying operators. -/
def multiplyingOps : List Kind := [.star, .slash, .kwMod, .kwRem]

/-- The operators in front of a primary. -/
def factorOps : List Kind := [.kwAbs, .kwNot, .cond] ++ logicalOps

/-- Reads further operands of a left-associative chain. -/
def parseChainN (ops : List Kind) (operand : Parse Expr) : Nat → Expr → Parse Expr
  | 0, x => giveUp x
  | fuel + 1, x => do
    if !(← isAtAny ops) then return x
    let op ← advance
    let y ← operand
    parseChainN ops operand fuel (.binary (leafOf op) x y)

/-- Reads a left-associative chain of operands. -/
def parseChain (ops : List Kind) (operand : Parse Expr) (x : Expr) : Parse Expr := fun s =>
  parseChainN ops operand s.size x s

/-- Reads an operand and at most one operator with a second operand. -/
def parsePair (ops : List Kind) (operand : Parse Expr) : Parse Expr := do
  let x ← operand
  if !(← isAtAny ops) then return x
  let op ← advance
  return .binary (leafOf op) x (← operand)

/-- Reads a factor. -/
def parseFactor : Parse Expr := do
  if ← isAtAny factorOps then
    let op ← advance
    return .unary (leafOf op) (← parsePrimary nested)
  parsePair [.starStar] (parsePrimary nested)

/-- Reads a chain of multiplying operators. -/
def parseTerm : Parse Expr := do
  parseChain multiplyingOps (parseFactor nested) (← parseFactor nested)

/-- Reads a chain of adding operators with an optional sign in front. -/
def parseAdding : Parse Expr := do
  let x ← if ← isAtAny [.plus, .minus] then do
      let op ← advance
      pure (.unary (leafOf op) (← parseTerm nested))
    else parseTerm nested
  parseChain addingOps (parseTerm nested) x

/-- Reads at most one shift. -/
def parseShift : Parse Expr := parsePair shiftOps (parseAdding nested)

/-- Reads at most one comparison. -/
def parseRelation : Parse Expr := parsePair relationalOps (parseShift nested)

/-- Reads an expression. -/
def parseExprWith : Parse Expr := do
  parseChain logicalOps (parseRelation nested) (← parseRelation nested)

/-- Reads an expression or a range: `x to y`, `x downto y`, `x range <>`, `x range r`. -/
def parseRangeWith : Parse Expr := do
  let x ← parseExprWith nested
  if ← isAtAny [.kwTo, .kwDownto] then
    let dir ← advance
    return .binary (leafOf dir) x (← parseExprWith nested)
  else if ← isAt .kwRange then
    let word ← advance
    match ← accept? .box with
    | some box => return .binary (leafOf word) x (.leaf (leafOf box))
    | none => return .binary (leafOf word) x (← nested)
  else return x

end

/-! ## All levels -/

/-- Reads an expression or a range, at most `n` levels deep. -/
def parseRangeN : Nat → Parse Expr
  | 0 => giveUp .missing
  | n + 1 => parseRangeWith (parseRangeN n)

/-- Reads an expression or a range. A deeper level needs a token more, so the number of tokens
left bounds the depth. -/
def parseRange : Parse Expr := fun s => parseRangeN (s.size + 1) s

/-- Reads an expression. -/
def parse : Parse Expr := fun s => parseExprWith (parseRangeN s.size) s

/-- Reads the target of an assignment or a procedure call. -/
def parseName : Parse Expr := fun s => parseNameWith (parseRangeN s.size) s

/-- Reads a list element. -/
def parseAssociation : Parse Assoc := parseAssoc parseRange

/-- Reads choices parted by bars. -/
def parseChoices : Parse (List Expr) := sepBy .bar parseRange

end VhdlStyle.Expr
