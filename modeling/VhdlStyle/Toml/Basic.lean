import VhdlStyle.Text.Quoted

/-! # TOML values and keys

Only what settings need is kept of a document: numbers with a fraction, dates and the items of
arrays are read and checked, but not stored. -/

namespace VhdlStyle.Toml

/-- A value. `tables` is an array of tables that grew from double-bracket headers or inline tables;
its last table is the open one. -/
inductive Value where
  | integer (n : Int)
  | text (t : Bytes)
  | bool (b : Bool)
  | scalar
  | array
  | table (entries : List (Bytes × Value))
  | tables (rows : List (List (Bytes × Value)))
  deriving Inhabited

/-- The entries of a table, each key once. -/
abbrev Table := List (Bytes × Value)

/-- A key is the path from the top of the document. -/
abbrev Key := List Bytes

/-- The value of an entry. -/
def Table.get? (t : Table) (name : Bytes) : Option Value :=
  (t.find? (·.1 == name)).map (·.2)

/-- Adds an entry or replaces its value. -/
def Table.put (t : Table) (name : Bytes) (value : Value) : Table :=
  match t with
  | [] => [(name, value)]
  | e :: rest => if e.1 == name then (name, value) :: rest else e :: Table.put rest name value

/-- The bytes of a bare key. -/
def isBareByte (b : UInt8) : Bool :=
  Bytes.isLetter b || Bytes.isDigit b || b == ('_' : UInt8) || b == ('-' : UInt8)

/-- One byte inside a quoted text. -/
def escapeByte (b : UInt8) : Bytes :=
  match b.toNat with
  | 34 => "\\\""
  | 92 => "\\\\"
  | 8 => "\\b"
  | 9 => "\\t"
  | 10 => "\\n"
  | 12 => "\\f"
  | 13 => "\\r"
  | n => if n < 0x20 || n == 0x7F then "\\u" ++ Quoted.hex 4 n else [b]

/-- A text in quotes. -/
def quote (text : Bytes) : Bytes := List.flatten ["\"", text.flatMap escapeByte, "\""]

/-- A part of a key, in quotes unless it is bare. -/
def partText (part : Bytes) : Bytes :=
  if !part.isEmpty && part.all isBareByte then part else quote part

/-- The key with dots between its parts. -/
def Key.text (key : Key) : Bytes := Bytes.join "." (key.map partText)

/-- What was read: the top table, and the keys in the order in which they were written. -/
structure Document where
  root : Table := []
  keys : List Key := []
  deriving Inhabited

end VhdlStyle.Toml
