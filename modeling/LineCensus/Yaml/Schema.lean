/-
# The types of YAML

Every node has a type. A tag gives it, and where there is none a collection is of the
type of its kind, a scalar in quotes is a text, and the type of a plain scalar is told
from its text. A tag may be of no type: only a value cannot be made of such a node.
-/

import LineCensus.Text.Lines
import LineCensus.Yaml.Moment
import LineCensus.Yaml.Node
import LineCensus.Yaml.Number

namespace LineCensus.Yaml

open Text

/-- The types that have a tag of their own. -/
inductive CoreType where
  | null
  | bool
  | integer
  | real
  | binary
  | moment
  | text
  | sequence
  /-- Pairs with keys that are all different. -/
  | orderedMapping
  | pairs
  | mapping
  | set
  /-- The key of the mappings that are merged into another one. -/
  | merge
  /-- The key of a default value. -/
  | default
deriving DecidableEq, Repr

namespace CoreType

/-- The names of the types in their tags. -/
def names : List (String × CoreType) :=
  [("null", null), ("bool", bool), ("int", integer), ("float", real), ("binary", binary),
    ("timestamp", moment), ("str", text), ("seq", sequence), ("omap", orderedMapping),
    ("pairs", pairs), ("map", mapping), ("set", set), ("merge", merge), ("value", default)]

/-- The type that a tag gives, none if there is no such type. -/
def ofTag? (tag : String) : Option CoreType :=
  (names.find? fun row => coreTagStart ++ row.1 = tag).map (·.2)

/-- The tag that leaves the type to the node. -/
def openTag : String := "!"

/-- The words for true and false, in lower case. -/
def boolWords : List (String × Bool) :=
  [("yes", true), ("no", false), ("true", true), ("false", false), ("on", true), ("off", false)]

/-- A word as it may be written: in lower case, with a capital letter, or in capitals only. -/
def spellings (word : String) : List (List Char) :=
  let capitals := word.toList.map Char.toUpper
  [word.toList, capitals.take 1 ++ word.toList.drop 1, capitals]

/-- Whether a text without a tag is understood as true or false. -/
def isBool (plain : List Char) : Bool :=
  boolWords.any fun (word, _) => (spellings word).contains plain

/-- Whether a text without a tag is understood as nothing at all. -/
def isNull (plain : List Char) : Bool :=
  plain.isEmpty || plain == ['~'] || (spellings "null").contains plain

/-- The marks that begin tags, anchors and aliases. On their own they are of no type. -/
def labelMarks : List (List Char) := [['!'], ['&'], ['*']]

/-- The type of a text without a line feed at its end. -/
def ofLine? (line : List Char) : Option CoreType :=
  if isBool line then some bool
  else if isReal line then some real
  else if isInteger line then some integer
  else if line = ['<', '<'] then some merge
  else if isNull line then some null
  else if Moment.isMoment line then some moment
  else if line = ['='] then some default
  else if labelMarks.contains line then none
  else some text

/-- The type of a scalar that counts as plain and has no tag. A line feed at its end makes no
difference, unless there is nothing else. -/
def ofPlain? (plain : List Char) : Option CoreType :=
  if plain = ['\n'] then some text else ofLine? (withoutFinalFeed plain)

/-- The type of a node that would be of type `other` if it had no tag. -/
def ofLabels? (labels : Labels) (other : Option CoreType) : Option CoreType :=
  match labels.tag with
  | none => other
  | some tag => if tag = openTag then other else ofTag? tag

/-- The type of a scalar. With the open tag a scalar in quotes counts as a plain one. -/
def ofScalar? (labels : Labels) (plain : String) (isPlain : Bool) : Option CoreType :=
  ofLabels? labels
    (if isPlain || labels.tag == some openTag then ofPlain? plain.toList else some text)

end CoreType

end LineCensus.Yaml
