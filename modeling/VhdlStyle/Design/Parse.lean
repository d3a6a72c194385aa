import VhdlStyle.Diagnostic.Bag
import VhdlStyle.Design.Comment

/-! # Reading tokens into a design tree

The state of parsing is the list of tokens still to be read; its first token is the current one,
and the end token is never taken. A comment belongs to the row that takes it first: reading past
a token puts its comments aside as pending, and the next row, or the next closing construct,
collects them. Errors never stop the parser. -/

namespace VhdlStyle

/-- The state of parsing one file. -/
structure ParseState where
  /-- The tokens from the current one on; the last is the end token. -/
  rest : List Token
  /-- Some token has been read. -/
  started : Bool := false
  /-- The span of the last token read. -/
  last : Span := default
  /-- Comments from the middle of constructs, waiting for a row. -/
  pending : List Comment := []
  /-- Errors found so far, silent ones included. -/
  errors : Nat := 0
  /-- From this many errors on, errors are silent; zero means never. -/
  maxErrors : Nat := 0
  bag : Bag
  /-- Some loop, or the nesting, met its bound. -/
  gaveUp : Bool := false
  deriving Inhabited

/-- An action on the parsing state. -/
abbrev Parse := StateM ParseState

namespace ParseState

/-- The current token. -/
def current (s : ParseState) : Token := s.rest.headD ⟨.eof, default, [], []⟩

/-- The kind of the current token. -/
def kind (s : ParseState) : Kind := s.current.kind

/-- The kind of the token `n` places ahead; beyond the end it is the end token's. -/
def kindAhead (s : ParseState) (n : Nat) : Kind :=
  match s.rest[n]? with
  | some t => t.kind
  | none => .eof

/-- How many tokens are left, the end token included. -/
def size (s : ParseState) : Nat := s.rest.length

/-- The state with the current token's leading trivia replaced. -/
def setLeading (s : ParseState) (leading : List Trivia) : ParseState :=
  match s.rest with
  | [] => s
  | t :: rest => { s with rest := { t with leading := leading } :: rest }

/-- Where to report a problem with the current token: at the end of the source this is just
behind the last token read. -/
def faultSpan (s : ParseState) : Span :=
  if s.kind == .eof && 0 < s.last.stop then Span.point s.last.file s.last.stop
  else s.current.span

/-- The current token starts a line. -/
def atLineStart (s : ParseState) : Bool :=
  !s.started || s.current.leading.any (·.kind == .newline)

end ParseState

namespace Parse

/-! ## Looking and moving -/

/-- The current token. -/
def current : Parse Token := return (← get).current

/-- The kind of the current token. -/
def kind : Parse Kind := return (← get).kind

/-- The kind of the token `n` places ahead. -/
def kindAhead (n : Nat) : Parse Kind := return (← get).kindAhead n

/-- The current token has kind `k`. -/
def isAt (k : Kind) : Parse Bool := return (← get).kind == k

/-- The current token's kind is among `kinds`. -/
def isAtAny (kinds : List Kind) : Parse Bool := return kinds.contains (← get).kind

/-- Reads the current token; its comments become pending. The end token stays. -/
def advance : Parse Token := fun s =>
  match s.rest with
  | [] => (s.current, s)
  | t :: rest =>
    if t.kind == .eof then (t, s)
    else (t, { s with
      rest := rest
      started := true
      last := t.span
      pending := s.pending ++ (Comment.ofTrivia t.leading).1 })

/-- Reads the current token without looking at it. -/
def skip : Parse Unit := do let _ ← advance

/-- Reads the current token if it has kind `k`. -/
def accept? (k : Kind) : Parse (Option Token) := do
  if ← isAt k then return some (← advance) else return none

/-- Reads the current token if it has kind `k`, and says so. -/
def accept (k : Kind) : Parse Bool := return (← accept? k).isSome

/-! ## Problems -/

/-- Reports a diagnostic; errors beyond the bound are counted only. -/
def report (severity : Severity) (code : Code) (span : Span) (message : Bytes) : Parse Unit :=
  modify fun s =>
    let isError := severity == .error
    let silent := isError && s.maxErrors != 0 && s.maxErrors ≤ s.errors
    { s with
      errors := if isError then s.errors + 1 else s.errors
      bag := if silent then s.bag else s.bag.add ⟨severity, code, span, message, []⟩ }

/-- Reports an error at the current token. -/
def fault (code : Code) (message : Bytes) : Parse Unit := do
  report .error code (← get).faultSpan message

/-- Reports what was expected and what stands there instead. -/
def faultGot (code : Code) (expected : Bytes) : Parse Unit := do
  fault code (List.flatten [expected, ", got \"", (← current).text, "\""])

/-- Reads a token of kind `k`, or reports what was expected and reads nothing. -/
def expect (k : Kind) (code : Code) (expected : Bytes) : Parse (Option Token) := do
  if ← isAt k then return some (← advance)
  faultGot code expected
  return none

/-- Reads a delimiter, or reports what was expected. -/
def expect_ (k : Kind) (code : Code) (expected : Bytes) : Parse Unit := do
  let _ ← expect k code expected

/-- Reads a reserved word. -/
def keyword (k : Kind) : Parse Unit :=
  expect_ k .expectKeyword (List.flatten ["expected '", k.keywordText, "'"])

/-- Reads a semicolon. -/
def semicolon : Parse Unit := expect_ .semicolon .expectSemicolon "expected ';'"

/-! ## Repetition

Each loop is bounded by the number of tokens left, since every round but the last reads one. -/

/-- The bound of a loop or of the nesting is met: `a` stands, and the state remembers. -/
def giveUp {α : Type} (a : α) : Parse α := fun s => (a, { s with gaveUp := true })

/-- Runs `item` until one of `stops` or the end of the source; a round that reads nothing skips a
token. -/
def manyN {α : Type} (stops : List Kind) (item : Parse (Option α)) : Nat → Parse (List α)
  | 0 => giveUp []
  | fuel + 1 => do
    if (← isAtAny stops) || (← isAt .eof) then return []
    let before := (← get).size
    let x ← item
    if (← get).size == before then skip
    let xs ← manyN stops item fuel
    return x.toList ++ xs

/-- Reads items up to one of `stops`. -/
def many {α : Type} (stops : List Kind) (item : Parse (Option α)) : Parse (List α) := fun s =>
  manyN stops item s.size s

/-- Reads `sep item` as often as it comes. -/
def afterEachN {α : Type} (sep : Kind) (item : Parse α) : Nat → Parse (List α)
  | 0 => giveUp []
  | fuel + 1 => do
    if !(← accept sep) then return []
    let x ← item
    let xs ← afterEachN sep item fuel
    return x :: xs

/-- Reads items parted by `sep`, at least one. -/
def sepBy {α : Type} (sep : Kind) (item : Parse α) : Parse (List α) := do
  let x ← item
  let xs ← fun s => afterEachN sep item s.size s
  return x :: xs

/-- Reads items parted by `sep` and stops at the first that fails. -/
def sepBySomeN {α : Type} (sep : Kind) (item : Parse (Option α)) : Nat → Parse (List α)
  | 0 => giveUp []
  | fuel + 1 => do
    match ← item with
    | none => return []
    | some x =>
      if !(← accept sep) then return [x]
      let xs ← sepBySomeN sep item fuel
      return x :: xs

/-- Reads items parted by `sep` and stops at the first that fails. -/
def sepBySome {α : Type} (sep : Kind) (item : Parse (Option α)) : Parse (List α) := fun s =>
  sepBySomeN sep item (s.size + 1) s

/-! ## Names and labels -/

/-- Reads a basic or extended identifier. -/
def ident? : Parse (Option Bytes) := do
  if ← isAtAny [.ident, .extIdent] then return some (← advance).text
  faultGot .expectIdentifier "expected identifier"
  return none

/-- Reads an identifier; the empty name stands for one that is missing. -/
def ident : Parse Bytes := return (← ident?).getD []

/-- Reads identifiers parted by commas. -/
def identList : Parse (List Bytes) := sepBySome .comma ident?

/-- Reads the label after an end, if there is one. -/
def optLabel : Parse Bytes := do
  if ← isAtAny [.ident, .extIdent] then return (← advance).text
  return []

/-- Warns when the label after an end names something else. -/
def checkEndLabel (label name : Bytes) : Parse Unit := do
  if !label.isEmpty && !name.isEmpty && !CaseMap.equalFold label name then
    report .warning .endLabelMismatch (← get).last
      (List.flatten ["end label \"", label, "\" does not match \"", name, "\""])

/-- Reads `end`, the words that may follow it, the label and the semicolon. When the first word is
there, so must the others be. -/
def endClause (name : Bytes) (words : List Kind) : Parse Bytes := do
  keyword .kwEnd
  match words with
  | [] => pure ()
  | word :: others =>
    if ← isAt word then
      skip
      others.forM keyword
  let label ← optLabel
  checkEndLabel label name
  semicolon
  return label

/-! ## Recovery -/

/-- Skips past the next semicolon, or up to one of `stops`, outside parentheses; `depth` counts
the open ones. -/
def resyncN (stops : List Kind) : Nat → Nat → Parse Unit
  | 0, _ => giveUp ()
  | fuel + 1, depth => do
    let k ← kind
    if k == .eof then return ()
    else if k == .lParen then
      skip
      resyncN stops fuel (depth + 1)
    else if k == .rParen && 0 < depth then
      skip
      resyncN stops fuel (depth - 1)
    else if depth == 0 && k == .semicolon then skip
    else if depth == 0 && stops.contains k then return ()
    else
      skip
      resyncN stops fuel depth

/-- Skips past the next semicolon or up to one of `stops`. -/
def resyncTo (stops : List Kind) : Parse Unit := fun s => resyncN stops s.size 0 s

/-! ## Comments -/

/-- Takes the pending comments and the trivia of the current token, which starts a row. -/
def rowTrivia : Parse RowTrivia := fun s =>
  let (comments, blank) := Comment.ofTrivia s.current.leading
  ({ leading := s.pending ++ comments, blankBefore := blank },
    { s.setLeading [] with pending := [] })

/-- The line comment at the front of trivia, after blanks alone, and the trivia behind it. -/
def inlineOf : List Trivia → Option (Bytes × List Trivia)
  | [] => none
  | t :: rest =>
    match t.kind with
    | .space => inlineOf rest
    | .lineComment => some (Comment.trim t.text, rest)
    | _ => none

/-- Takes the line comment on the line of the token just read. -/
def inline : Parse Bytes := fun s =>
  match inlineOf s.current.leading with
  | some (text, rest) => (text, s.setLeading rest)
  | none => ([], s)

/-- Takes the comments before a closing construct. -/
def tail : Parse (List Comment) := fun s =>
  (s.pending ++ (Comment.ofTrivia s.current.leading).1, { s.setLeading [] with pending := [] })

/-- The trivia of a row with the comment on its line, if one follows. -/
def withInline (t : RowTrivia) : Parse RowTrivia := return { t with inline := ← inline }

/-- Reads rows parted by `sep` up to a closing parenthesis. The comment behind a separator, or
before the parenthesis, belongs to the row before it. -/
def rowsN {α : Type} (sep : Kind) (row : RowTrivia → Parse α) (setInline : α → Bytes → α) :
    Nat → Parse (List α)
  | 0 => giveUp []
  | fuel + 1 => do
    if ← isAtAny [.rParen, .eof] then return []
    let x ← row (← rowTrivia)
    let more ← accept sep
    let x := setInline x (← inline)
    if !more then return [x]
    let xs ← rowsN sep row setInline fuel
    return x :: xs

/-- Reads rows parted by `sep` up to a closing parenthesis. -/
def rows {α : Type} (sep : Kind) (row : RowTrivia → Parse α) (setInline : α → Bytes → α) :
    Parse (List α) := fun s => rowsN sep row setInline s.size s

end Parse

end VhdlStyle
