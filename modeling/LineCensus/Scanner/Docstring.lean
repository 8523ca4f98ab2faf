/-
# Python

Comments begin with `#`. A string in triple quotes that begins its line counts as a
comment too, up to the closing quotes. It does not where the last line of code before
it ended in a backslash, because then it continues that line. Comments and blank lines
in between do not change what the last line of code was.
-/

import LineCensus.Scanner.Basic

namespace LineCensus.Docstring

open Text

/-- What is known between two lines. -/
structure State where
  /-- The quotes that will close the string that is open. -/
  openQuote : Option (List Char)
  /-- Whether the last line of code goes on after its end. -/
  continued : Bool
deriving DecidableEq, Repr

/-- The triple quotes. -/
def quotes : List (List Char) := [['"', '"', '"'], ['\'', '\'', '\'']]

/-- The kind of a line on which a string closes, given what follows. -/
def kindAfterQuote (rest : List Char) : LineKind :=
  let tail := trim rest
  .commentAnd (!tail.isEmpty && !startsWith ['#'] tail)

/-- Reads a trimmed line. -/
def readLine (state : State) (line : Line) : LineKind × State :=
  match state.openQuote with
  | some quote =>
    match after? quote line with
    | none => (.commentLine, state)
    | some rest => (kindAfterQuote rest, { state with openQuote := none })
  | none =>
    if startsWith ['#'] line then (.commentLine, state)
    else if !state.continued && startsWithAny quotes line then
      match after? (line.take 3) (line.drop 3) with
      | none => (.commentLine, { state with openQuote := some (line.take 3) })
      | some rest => (kindAfterQuote rest, state)
    else (.codeLine, { state with continued := endsWith ['\\'] line })

end LineCensus.Docstring

namespace LineCensus

/-- The scanner for Python. -/
def Scanner.docstring : Scanner where
  State := Docstring.State
  start := ⟨none, false⟩
  step state line := Docstring.readLine state (Text.trim line)

end LineCensus
