/-
# Languages of the punched card

Where a line is a card, the column decides: column 7 tells a COBOL comment and column
1 a comment of fixed-form Fortran. Both languages later got comments that may follow
code.
-/

import LineCensus.Scanner.Basic

namespace LineCensus.Scanner

open Text

/-- COBOL. A line is a comment if it begins with `*>` or has `*` or `/` in column 7, and holds one
if `*>` occurs in it. Columns are counted on the line as it is, with its indentation. -/
def cobol : Scanner :=
  stateless fun card =>
    if startsWith ['*', '>'] (trimLeft card) then .commentLine
    else if card[6]? = some '*' ∨ card[6]? = some '/' then .commentLine
    else if occursIn ['*', '>'] card then .mixedLine
    else .codeLine

/-- The characters that make a fixed-form line a comment when they stand in column 1. -/
def columnOneMarks : List Char := ['C', 'c', '*', 'D', 'd', '!']

/-- The kind of a Fortran line that does not show in column 1 that it is a comment. -/
def exclamationKind (line : Line) : LineKind :=
  if startsWith ['!'] (trim line) then .commentLine
  else if '!' ∈ trim line then .mixedLine
  else .codeLine

/-- Fortran on cards. -/
def fortranFixed : Scanner :=
  stateless fun line =>
    if line.head?.any (columnOneMarks.contains ·) then .commentLine else exclamationKind line

/-- Fortran in free form. -/
def fortranFree : Scanner :=
  stateless exclamationKind

end LineCensus.Scanner
