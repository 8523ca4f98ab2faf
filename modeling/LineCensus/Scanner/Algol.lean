/-
# ALGOL

A comment statement begins with the word `comment`, in capitals or not, and lasts to
the next semicolon, on the same line or a later one. A comment between two words
`co` and a comment after `#` stay on their line.

Where the comment ends is found in the lower-case form of the line, and what follows
is read off the line itself at the same distance from its start. The two agree except
on a line with a letter whose lower-case form is longer than the letter.
-/

import LineCensus.Scanner.Basic
import LineCensus.Text.Alphanumeric
import LineCensus.Text.LowerCase

namespace LineCensus.Algol

open Text

/-- The kind of a line that begins with a comment, given what follows the comment. -/
def kindAfterComment (rest : List Char) : LineKind :=
  let tail := trim rest
  .commentAnd (!tail.isEmpty && !startsWith ['#'] tail)

/-- The end of the first word `co` in a text, counted on from the position `here`. `inWord` says
whether a word goes on from before. -/
def coEnd? (inWord : Bool) (here : Nat) : List Char → Option Nat
  | [] => none
  | c :: rest =>
    if !inWord && startsWith ['c', 'o'] (c :: rest) && !((rest.drop 1).head?.any isWordChar) then
      some (here + 2)
    else coEnd? (isWordChar c) (here + 1) rest

/-- The kind of a line on which a comment statement ends, or none if it does not end there. -/
def kindAtSemicolon? (line : Line) : Option LineKind :=
  (position? [';'] (lower line)).map fun stop => kindAfterComment (line.drop (stop + 1))

/-- Reads a trimmed line. The state says whether a comment statement is open. -/
def readLine (inComment : Bool) (line : Line) : LineKind × Bool :=
  let lowered := lower line
  if inComment || startsWith ['c', 'o', 'm', 'm', 'e', 'n', 't'] lowered then
    match kindAtSemicolon? line with
    | some kind => (kind, false)
    | none => (.commentLine, true)
  else
    let closing := if startsWith ['c', 'o', ' '] lowered then coEnd? false 3 (lowered.drop 3) else none
    match closing with
    | some stop => (kindAfterComment (line.drop stop), false)
    | none => (if startsWith ['#'] lowered then .commentLine else .codeLine, false)

end LineCensus.Algol

namespace LineCensus

def Scanner.algol : Scanner where
  State := Bool
  start := false
  step inComment line := Algol.readLine inComment (Text.trim line)

end LineCensus
