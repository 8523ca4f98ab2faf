/-
# The layout of reports

Columns, the shortening of long names, and the numbers beside them. Widths count
characters, whatever their width on a screen.
-/

import LineCensus.Census.Totals
import LineCensus.Decimal.Fixed

namespace LineCensus.Report

open Text

/-- The width of the column for directories. -/
def directoryWidth : Nat := 40

/-- The width of the column for languages. -/
def languageWidth : Nat := 16

/-- The width of the column for the number of files. -/
def filesWidth : Nat := 8

/-- The width of the columns for numbers of lines. -/
def linesWidth : Nat := 10

/-- The width of a whole row. -/
def ruleWidth : Nat := 112

/-- A number of spaces. -/
def spaces (count : Nat) : String :=
  String.ofList (List.replicate count ' ')

/-- A text at the left of its column. A longer one sticks out. -/
def padRight (width : Nat) (text : String) : String :=
  text ++ spaces (width - text.length)

/-- A text at the right of its column. -/
def padLeft (width : Nat) (text : String) : String :=
  spaces (width - text.length) ++ text

/-- A number at the right of its column. -/
def numberCell (width : Nat) (value : Int) : String :=
  padLeft width (integerText value)

/-- The line between the parts of a table. -/
def rule : String :=
  String.ofList (List.replicate ruleWidth '-')

/-- The end of a text that is too long, after three dots. What is left has the length asked for,
unless that is less than three. -/
def truncateStart (text : String) (maxLength : Int) : String :=
  if (text.length : Int) ≤ maxLength then text
  else "..." ++ String.ofList (text.toList.drop ((text.length : Int) - (maxLength - 3)).toNat)

/-- One row of a table. -/
def statsLine (label language : String) (files : Int) (stats : LineStats) : String :=
  String.intercalate " "
    [padRight directoryWidth label, padRight languageWidth language, numberCell filesWidth files,
      numberCell linesWidth stats.code, numberCell linesWidth stats.comment,
      numberCell linesWidth stats.overlap, numberCell linesWidth stats.blank]

/-- The titles of the columns. -/
def headerLine : String :=
  String.intercalate " "
    [padRight directoryWidth "Directory", padRight languageWidth "Language",
      padLeft filesWidth "Files", padLeft linesWidth "Code", padLeft linesWidth "Comments",
      padLeft linesWidth "Mixed", padLeft linesWidth "Blank"]

/-- How much a part is of a whole, in percent. Of nothing every part is none. -/
def percentage (part whole : Int) : Binary64 :=
  if whole = 0 then .zero else (Binary64.ofRatio part whole).mul (.ofInt 100)

/-- The shortest time that a rate is computed for: the distance from one to the next number. -/
def leastElapsed : Binary64 := .ofRatio 1 (Binary64.twoTo 52)

/-- How many of something there were in a second. In no time there were none. -/
def rate (count : Int) (elapsed : Binary64) : Binary64 :=
  if elapsed.atMost leastElapsed then .zero else (Binary64.ofInt count).div elapsed

/-- How many of something there were in a second, of a whole number of seconds. The quotient is
rounded only once. -/
def rateOfSeconds (count seconds : Int) : Binary64 :=
  if seconds ≤ 0 then .zero else .ofRatio count seconds

/-- A directory as it is shown to somebody in `current`. -/
def displayDirectory (path current : Path) : String :=
  ((path.relativeTo? current).getD path).toString

end LineCensus.Report
