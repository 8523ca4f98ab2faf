/-
# Roles from file locations

The name of a file may say that it is a test, and so may a directory above it, as far
as that lies below the root of the scan. Letter case does not matter in either.
-/

import LineCensus.Path
import LineCensus.Role.Basic
import LineCensus.Text.LowerCase

namespace LineCensus.Location

open Text

/-- The directories that hold tests. -/
def testDirectories : List String := ["tests", "test", "testdata", "__tests__"]

/-- The extensions of languages where a test file is named after the file it tests. -/
def testedExtensions : List String := ["rs", "go", "py"]

/-- The part of a name before its last dot and the part after it. Without a dot all of the name is
in the second part. -/
def splitAtLastDot (name : List Char) : List Char × List Char :=
  let extension := (name.reverse.takeWhile (· != '.')).reverse
  (name.take (name.length - extension.length - 1), extension)

/-- Whether the last but one of at least three dotted parts of a name is `spec` or `test`. -/
def hasTestInfix (name : List Char) : Bool :=
  match (splitOn '.' name).reverse with
  | _ :: part :: _ :: _ => String.ofList part == "spec" || String.ofList part == "test"
  | _ => false

def isTestName (fileName : String) : Bool :=
  let lowered := lower fileName.toList
  let (stem, extension) := splitAtLastDot lowered
  hasTestInfix lowered ||
    (testedExtensions.contains (String.ofList extension) &&
      endsWith ['_', 't', 'e', 's', 't'] stem) ||
    (String.ofList extension == "py" && startsWith ['t', 'e', 's', 't', '_'] stem)

/-- Whether one of the directories on the way to a file is one for tests. -/
def isBelowTests (way : Path) : Bool :=
  way.names.dropLast.any fun name => testDirectories.contains (lowerName name.text)

/-- What the location of a file tells about its role. Without a root, or outside it, only the name
counts. -/
def roleHint (root : Option Path) (file : Path) : RoleHint :=
  if isTestName file.name then .testFile
  else match root.bind file.relativeTo? with
    | none => .unknown
    | some way => if isBelowTests way then .testFile else .mainlineFile

end LineCensus.Location
