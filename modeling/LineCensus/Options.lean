/-
# Scan options

What a user can choose about a scan. The limits are integers, because a user may well
ask for a negative one: then nothing at all is within it.
-/

namespace LineCensus

/-- The settings of a scan and of the report on it. -/
structure ScanOptions where
  /-- Patterns for what is left out. -/
  ignore : List String := []
  /-- A pattern for the files that are counted. -/
  filespec : Option String := none
  /-- The most files that are counted. -/
  maxEntries : Int := 1000000
  /-- How far below its root a scan descends. -/
  maxDepth : Int := 100
  /-- Whether only the files in the root itself are counted. -/
  nonRecursive : Bool := false
  /-- Whether the report has a part for either role. -/
  roleBreakdown : Bool := false
  /-- Whether a list of ignore patterns in the root is heeded. -/
  useGitignore : Bool := false
  /-- Whether single files are reported. -/
  verbose : Bool := false
deriving DecidableEq, Repr

end LineCensus
