/-
# Command procedures of OpenVMS

A command line begins with `$` and a comment with `!`. Program images share the file
extension, so a file counts as a procedure only if its first line that is not blank
begins in one of the two ways. Otherwise none of its lines is classified.
-/

import LineCensus.Scanner.Basic

namespace LineCensus.Dcl

open Text

/-- Whether a line looks like the start of a procedure. -/
def isProcedureLine (line : Line) : Bool :=
  startsWithAny [['$'], ['!']] (trimLeft line)

/-- Whether a file is a procedure. One without any line that is not blank is. -/
def isProcedure (lines : List Line) : Bool :=
  (firstNonblank? lines).all isProcedureLine

/-- Whether a trimmed line is a comment: `!` alone or after `$`. -/
def isComment (line : Line) : Bool :=
  startsWith ['!'] line ||
    (startsWith ['$'] line && startsWith ['!'] (trimLeft (line.drop 1)))

end LineCensus.Dcl

namespace LineCensus

/-- The scanner for command procedures. -/
def Scanner.dcl : Scanner :=
  { stateless (fun line =>
      if Dcl.isComment (Text.trim line) then .commentLine else .codeLine) with
    recognizes := Dcl.isProcedure }

end LineCensus
