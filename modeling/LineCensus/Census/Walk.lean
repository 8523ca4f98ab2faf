/-
# Walking a tree

What a scan comes across in a file tree, in the order in which it does: files to be
counted, and problems to be logged. A walk decides nothing about counting, and what it
finds in one place does not depend on what it found elsewhere. So the outcome of a
scan is a fold over the findings of its walk.

Directories are entered in the order of their entries' names; the walk itself takes
them as they are listed, and a tree is sorted before it is walked. Links are never
followed below the root.

Three kinds of failure can be simulated, by entries with special names, if faults are
enabled.
-/

import LineCensus.Count
import LineCensus.FileTree
import LineCensus.Filespec
import LineCensus.Ignore
import LineCensus.Log

namespace LineCensus

open Text

/-- What a walk comes across. -/
inductive Finding where
  /-- Something that goes wrong and is passed over. -/
  | problem (record : LogRecord)
  /-- A file that is to be counted, and what is in it. -/
  | candidate (path : Path) (contents : Contents)

/-- What a walk goes by. -/
structure Walk where
  /-- The directory below which paths are compared with patterns. -/
  root : Path
  rules : List IgnoreRule
  filespec : Option Filespec
  maxDepth : Int
  nonRecursive : Bool
  /-- Whether failures are simulated. -/
  faultsEnabled : Bool

namespace Walk

/-- The directories that are never entered below the root of a scan. -/
def excludedDirectories : List String :=
  ["target", "node_modules", "build", "dist", ".git", "venv", "__pycache__", "bin", "obj"]

/-- The name of a directory whose metadata cannot be read when faults are enabled. -/
def metadataFaultName : String := "__mdkloc_metadata_fail__"

/-- The name of a directory that cannot be listed when faults are enabled. -/
def readDirectoryFaultName : String := "__mdkloc_read_dir_fail__"

/-- How the name of an entry begins whose type cannot be told when faults are enabled. -/
def fileTypeFaultStart : String := "__mdkloc_file_type_fail__"

/-- A failure to be logged. -/
def failure (activity : String) (path : Path) (error : SystemError) : Finding :=
  .problem ⟨.error, "Error " ++ activity ++ " " ++ path.toString ++ ": " ++ error.message⟩

/-- What is logged about a directory that is too deep to be entered. -/
def depthWarning (maxDepth : Int) (path : Path) : Finding :=
  .problem ⟨.warning, "Maximum directory depth (" ++ integerText maxDepth ++ ") reached at " ++
    path.toString⟩

/-- A path as the ignore rules see it: from the root of the scan on. -/
def wayTo (walk : Walk) (path : Path) : List Char :=
  match path.relativeTo? walk.root with
  | some way => way.toString.toList
  | none => path.name.toList

/-- Whether the rules leave a path out. -/
def ignores (walk : Walk) (path : Path) (isDirectory : Bool) : Bool :=
  (isDirectory && excludedDirectories.contains path.name) ||
    IgnoreRule.ignores walk.rules (walk.wayTo path) isDirectory

/-- A file, if it is one of those that are to be counted. -/
def candidates (walk : Walk) (path : Path) (tree : FileTree) : List Finding :=
  if walk.filespec.all (·.isMatch walk.root path) then [.candidate path (tree.contents path)]
  else []

/-- What there is in place of the content of a path that is not looked into, none for a path that
is. Too great a depth is told before anything else is asked. -/
def barrier? (walk : Walk) (path : Path) (depth : Nat) : Option (List Finding) :=
  if walk.maxDepth < depth then some [depthWarning walk.maxDepth path]
  else if 0 < depth ∧ (walk.nonRecursive ∨ walk.ignores path true) then some []
  else if walk.faultsEnabled ∧ path.name = metadataFaultName then
    some [failure "reading metadata for" path (.simulated .metadata path)]
  else none

/-- Whether a directory cannot be listed, and why. -/
def listingError? (walk : Walk) (path : Path) : FileTree → Option SystemError
  | .lockedDirectory =>
    if walk.faultsEnabled ∧ path.name = readDirectoryFaultName then
      some (.simulated .readDirectory path)
    else some (.permissionDenied path)
  | .directory _ =>
    if walk.faultsEnabled ∧ path.name = readDirectoryFaultName then
      some (.simulated .readDirectory path)
    else none
  | _ => none

/-- Whether the type of an entry cannot be told. -/
def hasTypeFault (walk : Walk) (name : Name) : Bool :=
  walk.faultsEnabled && startsWith fileTypeFaultStart.toList name.text.toList

mutual

/-- What there is at a path and below it. -/
def findings (walk : Walk) (path : Path) (depth : Nat) (tree : FileTree) : List Finding :=
  match walk.barrier? path depth with
  | some found => found
  | none =>
    match walk.listingError? path tree with
    | some error => [failure "reading directory" path error]
    | none =>
      match tree with
      | .directory entries => walk.entryFindings path depth entries
      | .file _ | .lockedFile => if depth = 0 then walk.candidates path tree else []
      | .lockedDirectory | .link _ | .special => []

/-- What there is among the entries of a directory and below them. -/
def entryFindings (walk : Walk) (path : Path) (depth : Nat) :
    List (Name × FileTree) → List Finding
  | [] => []
  | (name, tree) :: rest =>
    let found :=
      if walk.hasTypeFault name then
        [failure "reading type for" (path.child name) (.simulated .fileType (path.child name))]
      else
        match tree with
        | .directory _ | .lockedDirectory =>
          if walk.nonRecursive then [] else walk.findings (path.child name) (depth + 1) tree
        | .file _ | .lockedFile =>
          if walk.ignores (path.child name) false then []
          else walk.candidates (path.child name) tree
        | .link _ | .special => []
    found ++ walk.entryFindings path depth rest

end

end Walk

end LineCensus
