/-
# Scanning a tree

A scan walks a tree, counts the files it finds and sums them up. Files are counted one
at a time, and each finding changes the state of the scan by a step of its own. A file
that cannot be read is logged and passed over; only too many files, or a pattern that
makes no sense, end a scan early. What happened before that is not lost.
-/

import LineCensus.Census.Totals
import LineCensus.Census.Walk
import LineCensus.Options

namespace LineCensus

open Text

/-- Why a scan ends without a report. -/
inductive ScanError where
  /-- There is nothing at the path. -/
  | pathMissing (path : Path)
  /-- Whether there is anything at the path cannot be seen from outside a locked directory. -/
  | pathHidden (failure : SystemError)
  /-- The pattern for files makes no sense. -/
  | badFilespec (pattern : String)
  /-- There are more files than allowed. -/
  | tooManyEntries
  /-- The list of ignore patterns is there but cannot be read. -/
  | unreadableIgnoreList (failure : SystemError)
  /-- A file's statistics do not add up. -/
  | unbalanced (fault : Imbalance)
deriving DecidableEq

def ScanError.message : ScanError → String
  | pathMissing path => "Path does not exist: " ++ path.toString
  | pathHidden failure => failure.message
  | badFilespec pattern => Filespec.refusal pattern
  | tooManyEntries => "Too many entries in directory tree"
  | unreadableIgnoreList failure => failure.message
  | unbalanced fault => fault.message

/-- Whether whoever asks for a scan reckons with its ending so. -/
def ScanError.isExpected : ScanError → Bool
  | pathMissing _ | badFilespec _ | tooManyEntries => true
  | pathHidden _ | unreadableIgnoreList _ | unbalanced _ => false

/-- What a scan has come to. Of the last three the latest is the first. -/
structure ScanState where
  report : ScanReport
  /-- How many files passed the filters. -/
  entries : Nat
  /-- The files in the report. -/
  recorded : List FileCount
  /-- The numbers of lines of all counted files. -/
  progress : List Nat
  log : List LogRecord
deriving DecidableEq

namespace ScanState

/-- A scan that has found nothing yet. -/
def start (root : Path) : ScanState := ⟨.empty root, 0, [], [], []⟩

/-- The same scan without the record of what happened in it. -/
def forgetful (state : ScanState) : ScanState :=
  { state with recorded := [], progress := [], log := [] }

/-- A scan that has logged one more problem. -/
def logProblem (state : ScanState) (record : LogRecord) : ScanState :=
  { state with
    report := { state.report with errorCount := state.report.errorCount + 1 }
    log := record :: state.log }

/-- A scan that has counted one more file. Where no line of it could be classified, the file is
counted but leaves no trace in the totals. -/
def recordFile (state : ScanState) (count : FileCount) : ScanState :=
  let report :=
    { state.report with
      filesProcessed := state.report.filesProcessed + 1
      linesProcessed := state.report.linesProcessed + count.totalLines }
  let state := { state with report, progress := count.totalLines :: state.progress }
  if count.stats.isEmpty ∧ 0 < count.totalLines then state
  else
    { state with
      report := { report with directories := report.directories.record count.path.parent count }
      recorded := count :: state.recorded }

/-- A scan that has come to a file. -/
def countCandidate (maxEntries : Int) (root : Path) (state : ScanState) (path : Path)
    (contents : Contents) : Except ScanError ScanState :=
  let entered := { state with entries := state.entries + 1 }
  if maxEntries < entered.entries then .error .tooManyEntries
  else match countFile (some root) none path contents with
    | .ok (some count) => .ok (entered.recordFile count)
    | .ok none => .ok entered
    | .error (.unreadable failure) =>
      .ok (entered.logProblem
        ⟨.error, "Error counting lines in " ++ path.toString ++ ": " ++ failure.message⟩)
    | .error (.unbalanced fault) => .error (.unbalanced fault)

/-- A scan that has come to one more finding of its walk. -/
def step (maxEntries : Int) (root : Path) (state : ScanState) :
    Finding → Except ScanError ScanState
  | .problem record => .ok (state.logProblem record)
  | .candidate path contents => state.countCandidate maxEntries root path contents

end ScanState

/-- Where a scan ended and, if it ended early, why. -/
structure ScanOutcome where
  state : ScanState
  error : Option ScanError
deriving DecidableEq

namespace ScanOutcome

/-- A scan that has come to the findings of its walk, one after the other. -/
def ofFindings (maxEntries : Int) (root : Path) (state : ScanState) : List Finding → ScanOutcome
  | [] => ⟨state, none⟩
  | finding :: rest =>
    match state.step maxEntries root finding with
    | .ok state => ofFindings maxEntries root state rest
    | .error error => ⟨state, some error⟩

end ScanOutcome

/-- The name of the list of ignore patterns. -/
def ignoreListName : Name := ⟨".gitignore", by decide⟩

/-- The rules in the list of ignore patterns of a directory, if there is one. -/
def listedRules (world : FileTree) (directory : Path) : Except SystemError (List IgnoreRule) := do
  let path := directory.child ignoreListName
  if world.denotes path then
    let bytes ← world.read path
    return IgnoreRule.ofList (Utf8.decodeLossy bytes.data.toList)
  else return []

/-- A scan that is ready to go. -/
structure Scan where
  /-- The path that is scanned, free of links. -/
  target : Path
  /-- What is there, in the order in which it is walked. -/
  tree : FileTree
  walk : Walk
  maxEntries : Int

namespace Scan

/-- What there is to be scanned at an absolute path. -/
def subject (world : FileTree) (path : Path) : Except ScanError FileTree :=
  match world.look path with
  | .ok (some tree) => .ok tree
  | .ok none => .error (.pathMissing path)
  | .error failure => .error (.pathHidden failure)

/-- Gets a scan ready, or says why it cannot begin. `path` is absolute. -/
def prepare (world : FileTree) (faultsEnabled : Bool) (options : ScanOptions) (path : Path) :
    Except ScanError Scan := do
  let tree ← subject world path
  let filespec ← match options.filespec with
    | none => pure none
    | some pattern => match Filespec.parse? pattern with
      | some filespec => pure (some filespec)
      | none => throw (.badFilespec pattern)
  let target := world.realPath path
  let root := match tree with
    | .directory _ | .lockedDirectory => target
    | _ => target.parent
  let listed ←
    if options.useGitignore then (listedRules world root).mapError .unreadableIgnoreList
    else pure []
  let rules := IgnoreRule.all listed options.ignore
  return ⟨target, tree.sorted,
    ⟨root, rules, filespec, options.maxDepth, options.nonRecursive, faultsEnabled⟩,
    options.maxEntries⟩

/-- What the walk of a scan comes across. -/
def findings (scan : Scan) : List Finding :=
  scan.walk.findings scan.target 0 scan.tree

/-- The state before the first finding. -/
def start (scan : Scan) : ScanState := .start scan.target

def run (scan : Scan) : ScanOutcome :=
  .ofFindings scan.maxEntries scan.walk.root scan.start scan.findings

end Scan

/-- Scans what is at an absolute path. -/
def scanTree (world : FileTree) (faultsEnabled : Bool) (options : ScanOptions) (path : Path) :
    ScanOutcome :=
  match Scan.prepare world faultsEnabled options path with
  | .ok scan => scan.run
  | .error error => ⟨.start path, some error⟩

end LineCensus
