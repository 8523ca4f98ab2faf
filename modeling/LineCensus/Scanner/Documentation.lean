/-
# Scripts with documentation blocks

Perl and Ruby have comments after `#` and, besides, blocks of documentation between
two lines that begin with an equals sign. A first line that begins with `#!` is code.
The state says whether a block is open.
-/

import LineCensus.Scanner.Basic

namespace LineCensus.Scanner

open Text

/-- The kind of a trimmed line outside every documentation block. -/
def hashKind (line : Line) : LineKind :=
  if startsWith ['#'] line then .commentLine else .codeLine

/-- Whether a trimmed line is a documentation command: an equals sign and a letter. -/
def isPodCommand (line : Line) : Bool :=
  match line with
  | '=' :: c :: _ => c.isAlpha
  | _ => false

/-- Perl. Any documentation command opens a block and `=cut` closes it. -/
def perl : Scanner where
  State := Bool
  start := false
  shebangIsCode := true
  step inBlock line :=
    let line := trim line
    if startsWith ['=', 'c', 'u', 't'] line then (.commentLine, false)
    else if inBlock || isPodCommand line then (.commentLine, true)
    else (hashKind line, false)

/-- Whether a trimmed line is a given word, alone or before a space. -/
def isWord (word line : Line) : Bool :=
  line == word || startsWith (word ++ [' ']) line

/-- Ruby. A block lasts from `=begin` to `=end`. -/
def ruby : Scanner where
  State := Bool
  start := false
  shebangIsCode := true
  step inBlock line :=
    let line := trim line
    if inBlock then (.commentLine, !isWord ['=', 'e', 'n', 'd'] line)
    else if isWord ['=', 'b', 'e', 'g', 'i', 'n'] line then (.commentLine, true)
    else (hashKind line, false)

end LineCensus.Scanner
