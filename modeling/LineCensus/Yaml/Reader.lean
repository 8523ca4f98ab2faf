/-
# Readers of YAML

Settings are written in YAML, but what a text says in YAML is not for the settings to
decide. They take a reader as it comes. Such a reader says what is in a text, or it
refuses the text and gives its reason in words of its own, on as many lines as it needs.
Nothing keeps a reader from failing on a text in another way.
-/

import LineCensus.Yaml.Value

namespace LineCensus.Yaml

/-- How a reader fails on a text. -/
inductive ReaderFailure where
  /-- The text is refused, for the reason that is given. -/
  | refused (reason : String)
  /-- The reader comes upon something that it is not made for. -/
  | broken
deriving DecidableEq, Repr

/-- Whoever can say what is in a text. -/
abbrev Reader := List Char → Except ReaderFailure Document

/-- The reader that goes by the documents of this library. It refuses without a reason. A scalar that
denotes nothing is more than it can deal with. -/
def Reader.wordless : Reader := fun text =>
  (Document.ofText text).mapError fun
    | .malformed => .refused ""
    | .impossibleScalar => .broken

end LineCensus.Yaml
