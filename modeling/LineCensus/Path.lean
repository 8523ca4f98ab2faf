/-
# Paths

A path is a sequence of names below a root, which is the working directory or the
root of the file system. Repeated separators and the component `.` leave no trace in
it; `..` does, since where it leads depends on the links in the file system. Two
leading slashes, and only two, are a root of their own.

Paths are compared name by name and not as text, so `src-old` is not below `src`.
-/

import LineCensus.Text.Search

namespace LineCensus

open Text

/-- A component of a path: not empty, not `.`, and without a separator. -/
structure Name where
  text : String
  isComponent : text ≠ "" ∧ text ≠ "." ∧ '/' ∉ text.toList
deriving DecidableEq

namespace Name

/-- The name that a text spells, if it spells one. -/
def ofString? (text : String) : Option Name :=
  if h : text ≠ "" ∧ text ≠ "." ∧ '/' ∉ text.toList then some ⟨text, h⟩ else none

/-- The component that leads to the parent directory. -/
def up : Name := ⟨"..", by decide⟩

/-- The stem and the extension of a name. A name whose only dot comes first or last has none. -/
def splitExtension? (text : List Char) : Option (List Char × List Char) :=
  let extension := (text.reverse.takeWhile (· != '.')).reverse
  let stem := text.take (text.length - extension.length - 1)
  if stem.isEmpty || extension.isEmpty then none else some (stem, extension)

/-- The extension of a name, without its dot. -/
def extension? (text : List Char) : Option (List Char) :=
  (splitExtension? text).map (·.2)

/-- A name reads back from its text. -/
@[simp] theorem ofString?_text (name : Name) : ofString? name.text = some name := by
  simp [ofString?, name.isComponent]

/-- A text that spells a name is the text of that name. -/
theorem text_of_ofString? {text : String} {name : Name} (h : ofString? text = some name) :
    name.text = text := by
  unfold ofString? at h
  split at h
  · cases h; rfl
  · simp at h

end Name

/-- Where a path begins. -/
inductive PathRoot where
  /-- At the working directory. -/
  | relative
  /-- At the root of the file system. -/
  | slash
  /-- At the root that two slashes denote. -/
  | doubleSlash
deriving DecidableEq, Repr

/-- The separators that a root is written with. -/
def PathRoot.text : PathRoot → String
  | relative => ""
  | slash => "/"
  | doubleSlash => "//"

/-- A root and the names below it. -/
structure Path where
  root : PathRoot
  names : List Name
deriving DecidableEq

namespace Path

/-- The root that a text begins with. -/
def rootOf (text : List Char) : PathRoot :=
  match (text.takeWhile (· == '/')).length with
  | 0 => .relative
  | 2 => .doubleSlash
  | _ => .slash

/-- The path that a text spells. Every text spells one. -/
def ofString (text : String) : Path where
  root := rootOf text.toList
  names := (splitOn '/' text.toList).filterMap fun piece => Name.ofString? (String.ofList piece)

/-- The text of a path. The working directory is written as a dot. -/
def toString (path : Path) : String :=
  if path.root = .relative ∧ path.names = [] then "."
  else path.root.text ++ String.intercalate "/" (path.names.map (·.text))

/-- The last name, empty for a root. -/
def name (path : Path) : String :=
  (path.names.getLast?.map (·.text)).getD ""

/-- The directory that holds a path. A root holds itself. -/
def parent (path : Path) : Path :=
  { path with names := path.names.dropLast }

/-- The path of an entry of a directory. -/
def child (path : Path) (name : Name) : Path :=
  { path with names := path.names ++ [name] }

/-- The path `other` seen from `path`, which makes no difference unless `other` is relative. -/
def join (path other : Path) : Path :=
  if other.root = .relative then { path with names := path.names ++ other.names } else other

/-- The way from `base` down to a path, if the path is `base` or below it. -/
def relativeTo? (path base : Path) : Option Path :=
  if path.root = base.root then
    (base.names.isPrefixOf? path.names).map fun names => ⟨.relative, names⟩
  else none

/-- The extension of the last name with its dot, empty if there is none. -/
def suffix (path : Path) : String :=
  match Name.extension? path.name.toList with
  | some extension => String.ofList ('.' :: extension)
  | none => ""

/-- The directory of an entry is the one that it was named in. -/
@[simp] theorem parent_child (path : Path) (name : Name) : (path.child name).parent = path := by
  simp [parent, child]

/-- An entry has the name that it was given. -/
@[simp] theorem name_child (path : Path) (name : Name) : (path.child name).name = name.text := by
  simp [Path.name, child]

end Path

end LineCensus
