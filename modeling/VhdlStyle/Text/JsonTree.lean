import VhdlStyle.Text.Quoted

/-! # JSON texts

Values are written either on one line or with one member a line. Texts are escaped so that they can
stand inside a web page: angle brackets, ampersands and the two Unicode line separators never
appear as themselves. -/

namespace VhdlStyle

mutual

/-- A JSON value. -/
inductive JsonTree where
  | null
  | text (value : Bytes)
  | number (value : Int)
  | bool (value : Bool)
  | list (items : List JsonTree)
  | object (members : List JsonMember)

/-- A named value inside an object. -/
inductive JsonMember where
  | mk (name : Bytes) (value : JsonTree)

end

instance : Inhabited JsonTree := ⟨.null⟩

namespace JsonTree

/-- One character inside the quotes. -/
def glyph (g : Utf8.Glyph) : Bytes :=
  if !g.wellFormed then "\\ufffd"
  else match g.rune with
    | 34 => "\\\""
    | 92 => "\\\\"
    | 8 => "\\b"
    | 12 => "\\f"
    | 10 => "\\n"
    | 13 => "\\r"
    | 9 => "\\t"
    | r =>
      if r < 0x20 || r == 60 || r == 62 || r == 38 || r == 0x2028 || r == 0x2029 then
        "\\u" ++ Quoted.hex 4 r
      else g.bytes

/-- A text in quotes. -/
def quote (text : Bytes) : Bytes :=
  List.flatten ["\"", (Utf8.glyphs text).flatMap glyph, "\""]

/-- A truth value. -/
def ofBool (b : Bool) : Bytes := if b then "true" else "false"

mutual

/-- The value on one line. -/
def compact : JsonTree → Bytes
  | .null => "null"
  | .text t => quote t
  | .number n => Bytes.ofInt n
  | .bool b => ofBool b
  | .list items => List.flatten ["[", Bytes.join "," (compactItems items), "]"]
  | .object members => List.flatten ["\x7b", Bytes.join "," (compactMembers members), "\x7d"]

/-- Each item on one line. -/
def compactItems : List JsonTree → List Bytes
  | [] => []
  | item :: rest => compact item :: compactItems rest

/-- Each member on one line. -/
def compactMembers : List JsonMember → List Bytes
  | [] => []
  | .mk name value :: rest =>
    List.flatten [quote name, ":", compact value] :: compactMembers rest

end

/-- The start of a line at a depth. -/
def margin (depth : Nat) : Bytes := Bytes.lf :: List.replicate (2 * depth) Bytes.space

/-- Parts between brackets, one a line; without parts the brackets meet. -/
def spread (opener closer : Bytes) (depth : Nat) (parts : List Bytes) : Bytes :=
  if parts.isEmpty then opener ++ closer
  else List.flatten [opener, margin (depth + 1),
    Bytes.join (Bytes.ofString "," ++ margin (depth + 1)) parts, margin depth, closer]

mutual

/-- The value over several lines, its first one at a depth. -/
def indented (depth : Nat) : JsonTree → Bytes
  | .null => "null"
  | .text t => quote t
  | .number n => Bytes.ofInt n
  | .bool b => ofBool b
  | .list items => spread "[" "]" depth (indentedItems depth items)
  | .object members => spread "\x7b" "\x7d" depth (indentedMembers depth members)

/-- The items inside a list at a depth. -/
def indentedItems (depth : Nat) : List JsonTree → List Bytes
  | [] => []
  | item :: rest => indented (depth + 1) item :: indentedItems depth rest

/-- The members inside an object at a depth. -/
def indentedMembers (depth : Nat) : List JsonMember → List Bytes
  | [] => []
  | .mk name value :: rest =>
    List.flatten [quote name, ": ", indented (depth + 1) value] :: indentedMembers depth rest

end

/-- The value over several lines, closed by a line feed. -/
def page (j : JsonTree) : Bytes := j.indented 0 ++ [Bytes.lf]

/-- An object; members without a value are left out. -/
def record (members : List (Bytes × Option JsonTree)) : JsonTree :=
  .object (members.filterMap fun (name, value) => value.map (.mk name))

/-- A text that is left out when it is empty. -/
def text? (t : Bytes) : Option JsonTree := if t.isEmpty then none else some (.text t)

/-- A number that is left out when it is zero. -/
def number? (n : Int) : Option JsonTree := if n == 0 then none else some (.number n)

end JsonTree

end VhdlStyle
