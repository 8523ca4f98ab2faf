/-
# File specifications

A glob that restricts a scan to the files whose name, or whose path below the root of
the scan, it matches. One in which more brackets are opened than closed is refused
and not taken literally.
-/

import LineCensus.Glob
import LineCensus.Path

namespace LineCensus

/-- A glob for files. -/
structure Filespec where
  glob : Glob
deriving DecidableEq, Repr

namespace Filespec

/-- How many brackets are open after a text. A closing bracket too many is ignored. -/
def openBrackets (pattern : List Char) : Nat :=
  pattern.foldl (fun depth c => if c = '[' then depth + 1 else if c = ']' then depth - 1 else depth) 0

/-- The specification that a pattern spells, none if a bracket is left open. -/
def parse? (pattern : String) : Option Filespec :=
  if openBrackets pattern.toList = 0 then some ⟨Glob.parse pattern.toList⟩ else none

/-- What is wrong with a pattern that is refused. -/
def refusal (pattern : String) : String :=
  "Invalid filespec pattern '" ++ pattern ++ "': unclosed character class"

/-- Whether a file below `root` is meant. Outside the root only the name counts. -/
def isMatch (spec : Filespec) (root file : Path) : Bool :=
  spec.glob.isMatch file.name.toList ||
    (file.relativeTo? root).any fun way => spec.glob.isMatch way.toString.toList

end Filespec

end LineCensus
