import VhdlStyle.Toml.Quoting

/-! # Reading TOML documents

The reader follows the text from left to right and enters each value at its key. Tables that a
longer key brings about are implicit: a header may still open them. A key that holds an array may
be given again. -/

namespace VhdlStyle.Toml

/-- What remains of the text, and what is known so far: the top table, the implicit tables, the keys
that hold arrays, the open table, and the keys in reverse order. -/
structure Reader where
  rest : Bytes
  root : Table := []
  implicit : List Key := []
  arrays : List Key := []
  context : Key := []
  keys : List Key := []
  deriving Inhabited

/-- A step of the reader; it fails on a text that is no document. -/
abbrev Read := StateT Reader Option

namespace Read

/-! ## Tables -/

/-- Changes the table at a path. -/
def update (f : Table → Option Table) : Key → Table → Option Table
  | [], t => f t
  | name :: path, t =>
    match t.get? name with
    | some (.table sub) => (update f path sub).map fun sub => t.put name (.table sub)
    | some (.tables rows) =>
      match rows.getLast? with
      | none => none
      | some last => (update f path last).map fun last =>
          t.put name (.tables (rows.dropLast ++ [last]))
    | _ => none

/-- Changes the table at a path of the document. -/
def updateAt (path : Key) (f : Table → Option Table) : Read Unit := do
  let s ← get
  let root ← (update f path s.root : Option Table)
  set { s with root }

/-- The table at a path has an entry. -/
def has (path : Key) (name : Bytes) : Read Bool := do
  let s ← get
  return (update (fun t => if (t.get? name).isSome then some t else none) path s.root).isSome

/-- Marks a table as implicit. -/
def addImplicit (key : Key) : Read Unit :=
  modify fun s => { s with implicit := key :: s.implicit }

/-- The table is explicit from now on. -/
def dropImplicit (key : Key) : Read Unit :=
  modify fun s => { s with implicit := s.implicit.filter (· != key) }

/-- Notes whether a key of the open table holds an array; no name means the table itself. -/
def note (name : Bytes) (isArray : Bool) : Read Unit := modify fun s =>
  let path := if name.isEmpty then s.context else s.context ++ [name]
  let path := if path.isEmpty then [[]] else path
  let others := s.arrays.filter (· != path)
  { s with arrays := if isArray then path :: others else others }

/-- Enters a value into the open table. Only arrays may be given again; an implicit table stays and
becomes explicit. -/
def enter (name : Bytes) (value : Value) : Read Unit := do
  let s ← get
  let path := s.context ++ [name]
  if !(← has s.context name) then updateAt s.context fun t => some (t.put name value)
  else if s.arrays.contains path then
    dropImplicit path
    updateAt s.context fun t => some (t.put name value)
  else if s.implicit.contains path then dropImplicit path
  else failure

/-- Makes sure that a table stands at each of the paths, of which each is one longer than the one
before. -/
def ensure : Key → Key → Read Unit
  | _, [] => return
  | path, name :: rest => do
    if !(← has path name) then
      addImplicit (path ++ [name])
      updateAt path fun t => some (t.put name (.table []))
    updateAt (path ++ [name]) some
    ensure (path ++ [name]) rest

/-- Opens the table with a key, or a new one at the end of its array of tables. -/
def openTable (key : Key) (inArray : Bool) : Read Unit := do
  let path := key.dropLast
  let name := key.getLast?.getD []
  ensure [] path
  modify fun s => { s with context := path }
  if inArray then
    updateAt path fun t => match t.get? name with
      | none => some (t.put name (.tables [[]]))
      | some (.tables rows) => some (t.put name (.tables (rows ++ [[]])))
      | _ => none
  else enter name (.table [])
  modify fun s => { s with context := key }

/-! ## Text -/

/-- The next byte. -/
def peek : Read (Option UInt8) := do return (← get).rest.head?

/-- Drops the bytes in front on which `p` holds. -/
def skipWhile (p : UInt8 → Bool) : Read Unit :=
  modify fun s => { s with rest := s.rest.dropWhile p }

/-- Drops a byte that must be in front. -/
def expect (b : UInt8) : Read Unit := do
  let s ← get
  match s.rest with
  | c :: rest => if c == b then set { s with rest } else failure
  | [] => failure

/-- Reads with a function on the text. -/
def scan {α : Type} (f : Bytes → Option (α × Bytes)) : Read α := do
  let s ← get
  let (a, rest) ← (f s.rest : Option (α × Bytes))
  set { s with rest }
  return a

/-- Drops a comment up to the end of its line. -/
def skipComment : Read Unit := skipWhile (!isNewline ·)

/-- Drops blanks, line ends and comments. -/
def skipLines : Nat → Read Unit
  | 0 => return
  | fuel + 1 => do
    skipWhile fun b => isBlankByte b || isNewline b
    if (← peek) == some ('#' : UInt8) then
      skipComment
      skipLines fuel

/-- One part of a key. -/
def keyPart : Read Bytes := do
  match ← peek with
  | none => failure
  | some b =>
    if b == doubleQuote || b == singleQuote then scan readText?
    else scan fun text => match text.span isBareByte with
      | ([], _) => none
      | parts => some parts

/-- A key with dots between its parts. -/
def keyN : Nat → Read Key
  | 0 => failure
  | fuel + 1 => do
    skipWhile isBlankByte
    let part ← keyPart
    skipWhile isBlankByte
    if (← peek) == some ('.' : UInt8) then
      expect '.'
      return part :: (← keyN fuel)
    else return [part]

/-- A key. -/
def key : Read Key := fun s => keyN s.rest.length s

/-- Opens the tables that the parts of a key before its last one name, and gives the last one. -/
def openParts : Key → Read Bytes
  | [] => failure
  | [name] => return name
  | part :: rest => do
    let key := (← get).context ++ [part]
    addImplicit key
    openTable key false
    openParts rest

/-- Notes that a key of the open table is written here. -/
def writeKey (name : Bytes) : Read Unit :=
  modify fun s => { s with keys := (s.context ++ [name]) :: s.keys }

/-- A word. -/
def word (text : String) (value : Value) : Read Value := scan fun rest =>
  (Bytes.dropPrefix? (Bytes.ofString text) rest).map (value, ·)

mutual

/-- The value of the key `name`, inside an array or not. -/
def value : Nat → Bytes → Bool → Read Value
  | 0, _, _ => failure
  | fuel + 1, name, inArray => do
    skipWhile isBlankByte
    match ← peek with
    | none => failure
    | some b =>
      if Bytes.isDigit b then scan readNumber
      else if b == ('[' : UInt8) then
        expect '['
        note name true
        items fuel name
      else if b == 0x7B then
        expect 0x7B
        let outer := (← get).context
        let own := outer ++ [name]
        addImplicit own
        openTable own inArray
        let entries ← pairs fuel own
        modify fun s => { s with context := outer }
        return .table entries
      else if b == doubleQuote || b == singleQuote then return .text (← scan readAnyText?)
      else if b == ('-' : UInt8) || b == ('+' : UInt8) then
        expect b
        scan (readSigned b)
      else if b == ('t' : UInt8) then word "true" (.bool true)
      else if b == ('f' : UInt8) then word "false" (.bool false)
      else if b == ('i' : UInt8) then word "inf" .scalar
      else word "nan" .scalar

/-- The items of an array, after its bracket or a comma. -/
def items : Nat → Bytes → Read Value
  | 0, _ => failure
  | fuel + 1, name => do
    fun s => skipLines s.rest.length s
    if (← peek) == some (']' : UInt8) then
      expect ']'
      return .array
    let _ ← value fuel name true
    fun s => skipLines s.rest.length s
    if (← peek) == some (',' : UInt8) then
      expect ','
      items fuel name
    else
      expect ']'
      return .array

/-- The pairs of an inline table, after its brace or a comma. -/
def pairs : Nat → Key → Read Table
  | 0, _ => failure
  | fuel + 1, own => do
    skipWhile isBlankByte
    if (← peek) == some (0x7D : UInt8) then
      expect 0x7D
      return []
    let name ← openParts (← key)
    expect '='
    writeKey name
    let v ← value fuel name false
    enter name v
    note name (v matches .array)
    modify fun s => { s with context := own }
    skipWhile isBlankByte
    if (← peek) == some (',' : UInt8) then
      expect ','
      skipWhile isBlankByte
      if (← peek) == some (0x7D : UInt8) then failure
      let rest ← pairs fuel own
      return if (Table.get? rest name).isSome then rest else (name, v) :: rest
    else
      expect 0x7D
      return [(name, v)]

end

/-- Nothing but blanks and a comment may follow on the line. -/
def lineEnd : Read Unit := do
  skipWhile isBlankByte
  match ← peek with
  | none => return
  | some b =>
    if b == ('#' : UInt8) then skipComment
    else if isNewline b then return
    else failure

/-- A header after its first bracket. -/
def header : Read Unit := do
  let inArray := (← peek) == some ('[' : UInt8)
  if inArray then expect '['
  let name ← key
  expect ']'
  if inArray then expect ']'
  openTable name inArray
  note [] false
  modify fun s => { s with keys := name :: s.keys }

/-- A key and its value. -/
def pair : Read Unit := do
  let outer := (← get).context
  let name ← openParts (← key)
  expect '='
  writeKey name
  let v ← fun s => value (s.rest.length + 1) name false s
  enter name v
  note name (v matches .array)
  modify fun s => { s with context := outer }

/-- The lines of a document. -/
def lines : Nat → Read Unit
  | 0 => return
  | fuel + 1 => do
    fun s => skipLines s.rest.length s
    match ← peek with
    | none => return
    | some b =>
      if b == ('[' : UInt8) then
        expect '['
        header
      else pair
      lineEnd
      lines fuel

end Read

/-- The characters a document may have: no control characters but tabs and line ends, and no
replacement character. -/
def isAllowed (g : Utf8.Glyph) : Bool :=
  g.wellFormed && g.rune != Utf8.replacement && g.rune != 0x7F &&
    (0x20 ≤ g.rune || g.rune == 9 || g.rune == 10 || g.rune == 13)

/-- Every CR is followed by LF. -/
def returnsOk : Bytes → Bool
  | [] => true
  | b :: rest => (b != Bytes.cr || rest.head? == some Bytes.lf) && returnsOk rest

/-- A text without the byte order mark it may start with. -/
def dropMark (text : Bytes) : Bytes :=
  match [[0xFF, 0xFE], [0xFE, 0xFF], [0xEF, 0xBB, 0xBF]].findSome? fun m =>
      Bytes.dropPrefix? m text with
  | some rest => rest
  | none => text

/-- Reads a document. -/
def Document.parse? (text : Bytes) : Option Document := do
  let text := dropMark text
  if !(Utf8.glyphs text).all isAllowed || !returnsOk text then none
  let (_, s) ← (Read.lines (text.length + 1)).run { rest := text }
  return { root := s.root, keys := s.keys.reverse }

end VhdlStyle.Toml
