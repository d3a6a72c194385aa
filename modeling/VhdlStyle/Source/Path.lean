import VhdlStyle.Text.Bytes

/-! # Slash-separated paths -/

namespace VhdlStyle.Path

/-- The elements of a path; empty elements come from doubled, leading and trailing slashes. -/
def elements (path : Bytes) : List Bytes := Bytes.split '/' path

/-- One element pushed onto the reversed elements kept so far: empty and `.` elements vanish, and
`..` removes its predecessor. At the root of an absolute path `..` vanishes too. -/
def pushElement (absolute : Bool) (kept : List Bytes) (element : Bytes) : List Bytes :=
  if element.isEmpty || element == "." then kept
  else if element != ".." then element :: kept
  else match kept with
    | [] => if absolute then [] else [element]
    | last :: rest => if last == ".." then element :: kept else rest

/-- The shortest path with the same meaning, by text alone; the empty path is `.`. -/
def clean (path : Bytes) : Bytes :=
  let absolute := path.head? == some ('/' : UInt8)
  let kept := (elements path).foldl (pushElement absolute) []
  let body := Bytes.join "/" kept.reverse
  if absolute then '/' :: body else body.orElse "."

/-- The path starts at the root. -/
def isAbsolute (path : Bytes) : Bool := path.head? == some ('/' : UInt8)

/-- The elements that are not empty joined with slashes and cleaned; no element gives the empty
path. -/
def join (parts : List Bytes) : Bytes :=
  let parts := parts.filter (!·.isEmpty)
  if parts.isEmpty then [] else clean (Bytes.join "/" parts)

/-- All but the last element, cleaned. -/
def dir (path : Bytes) : Bytes :=
  clean (path.reverse.dropWhile (· != ('/' : UInt8))).reverse

/-- The last element; trailing slashes are dropped first, the empty path gives `.`. -/
def base (path : Bytes) : Bytes :=
  if path.isEmpty then "."
  else
    let trimmed := Bytes.trimRight (· == ('/' : UInt8)) path
    if trimmed.isEmpty then "/" else (trimmed.reverse.takeWhile (· != ('/' : UInt8))).reverse

/-- The suffix of the last element that starts at its last dot, or the empty text. -/
def extension (path : Bytes) : Bytes :=
  let last := path.reverse.takeWhile (· != ('/' : UInt8))
  if last.contains ('.' : UInt8) then
    '.' :: (last.takeWhile (· != ('.' : UInt8))).reverse
  else []

end VhdlStyle.Path
