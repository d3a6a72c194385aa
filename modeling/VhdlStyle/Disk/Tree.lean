import VhdlStyle.Text.Bytes

/-! # File trees

A tree of folders and files. A `Location` names a place in a tree by the names on the way to it,
whether or not anything is there. -/

namespace VhdlStyle

mutual

/-- A file or a folder with everything below it. -/
inductive FileTree where
  | file (content : Bytes)
  | folder (entries : List FileEntry)

/-- A named tree inside a folder. -/
inductive FileEntry where
  | mk (name : Bytes) (tree : FileTree)

end

/-- The names on the way from the top of a tree. -/
abbrev Location := List Bytes

instance : Inhabited FileTree := ⟨.folder []⟩

namespace FileTree

/-- The tree with a name among some entries. -/
def child? (name : Bytes) : List FileEntry → Option FileTree
  | [] => none
  | .mk n t :: rest => if n == name then some t else child? name rest

/-- The tree at a location. -/
def get? : FileTree → Location → Option FileTree
  | t, [] => some t
  | .file _, _ :: _ => none
  | .folder entries, name :: rest =>
    match child? name entries with
    | none => none
    | some t => t.get? rest

/-- Gives a name to a tree among some entries, which stay in the order of their names. A tree that
had the name is replaced. -/
def setChild (name : Bytes) (tree : FileTree) : List FileEntry → List FileEntry
  | [] => [.mk name tree]
  | .mk n t :: rest =>
    if n == name then .mk n tree :: rest
    else if n < name then .mk n t :: setChild name tree rest
    else .mk name tree :: .mk n t :: rest

/-- Puts a tree at a location; folders missing on the way are made, and a file on the way stays. -/
def put : FileTree → Location → FileTree → FileTree
  | _, [], new => new
  | .file content, _ :: _, _ => .file content
  | .folder entries, name :: rest, new =>
    .folder (setChild name (put ((child? name entries).getD (.folder [])) rest new) entries)

/-- The tree is a folder. -/
def isFolder : FileTree → Bool
  | .folder _ => true
  | .file _ => false

mutual

/-- All files of a tree that stands at a location, by name. -/
def filesFrom (here : Location) : FileTree → List (Location × Bytes)
  | .file content => [(here, content)]
  | .folder entries => entryFiles here entries

/-- All files below some entries of the folder at a location. -/
def entryFiles (here : Location) : List FileEntry → List (Location × Bytes)
  | [] => []
  | .mk name t :: rest => t.filesFrom (here ++ [name]) ++ entryFiles here rest

end

/-- All files of a tree. -/
def files (t : FileTree) : List (Location × Bytes) := t.filesFrom []

end FileTree

end VhdlStyle
