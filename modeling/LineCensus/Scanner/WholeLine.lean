/-
# Formats with whole-line comments

Here a comment takes the whole line or is no comment at all: a marker after code on
the same line leaves the line code.
-/

import LineCensus.Scanner.Basic

namespace LineCensus.Scanner

open Text

/-- A format without comments. -/
def commentless : Scanner :=
  stateless fun _ => .codeLine

/-- A comment begins with one of the given markers. -/
def prefixed (markers : List (List Char)) (shebangIsCode : Bool) : Scanner :=
  { stateless (fun line =>
      if startsWithAny markers (trim line) then .commentLine else .codeLine) with
    shebangIsCode }

/-- Configuration files and scripts whose comments begin with `#`. -/
def hash : Scanner := prefixed [['#']] false

/-- Scripts whose comments begin with `#` and whose first line may name the interpreter. -/
def hashScript : Scanner := prefixed [['#']] true

/-- Settings in sections, with `#` and `;`. -/
def settings : Scanner := prefixed [['#'], [';']] false

/-- Assembly language, with `;`, `#` and `//`. -/
def assembly : Scanner := prefixed [[';'], ['#'], ['/', '/']] false

def firstWord (line : Line) : List Char :=
  (trimLeft line).takeWhile fun c => !isBlank c

/-- Command batches, where a comment begins with `::` or has `REM`, in capitals or not, for its
first word. -/
def batch : Scanner :=
  stateless fun line =>
    if startsWith [':', ':'] (trim line) || (firstWord line).map Char.toUpper == ['R', 'E', 'M']
    then .commentLine else .codeLine

end LineCensus.Scanner
