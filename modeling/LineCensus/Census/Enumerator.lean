/-
# Scanning again and again

An enumerator is sent out with some options to scan one path after another. What it goes
by in a scan it keeps in three places: the pattern for files, the rules for what is left
out, and how many files have passed the filters. These are settled one after the other
as a scan begins, so a scan that fails on the way leaves behind some of its own and some
of what earlier scans have left.

Whoever is told of the files that are counted can break a scan off, and that as well
leaves behind what was known at that moment.
-/

import LineCensus.Census.Scan

namespace LineCensus

/-- Who is told of each file that is counted, first of the number of its lines and then of the file.
Either can be taken as a reason to break the scan off. What is told comes as a list of all that was
told in the scan, the latest first. -/
structure Audience where
  objectsToProgress : List Nat → Option String
  objectsToFile : List FileCount → Option String

namespace Audience

/-- An audience that never breaks off a scan. -/
def patient : Audience := ⟨fun _ => none, fun _ => none⟩

/-- What a scan has come to, and the reason, if it is broken off over the file that was counted in
its last step. A file of which only the number of lines is told yet is in no directory. -/
def objection? (audience : Audience) (before after : ScanState) : Option (ScanState × String) :=
  if after.progress.length = before.progress.length then none
  else match audience.objectsToProgress after.progress with
    | none =>
      if after.recorded.length = before.recorded.length then none
      else (audience.objectsToFile after.recorded).map fun reason => (after, reason)
    | some reason =>
      let report := { after.report with directories := before.report.directories }
      some ({ after with report, recorded := before.recorded }, reason)

end Audience

/-- A scan to be made, and what there is at the moment when it is made. -/
structure Visit where
  world : FileTree
  faultsEnabled : Bool
  /-- The absolute path that is scanned. -/
  path : Path
  audience : Audience

/-- Why a scan does not come to its end. -/
inductive Halt where
  | failed (error : ScanError)
  | brokenOff (reason : String)
deriving DecidableEq

/-- Where a visit ended and, if it ended early, why. -/
structure VisitOutcome where
  state : ScanState
  halt : Option Halt
deriving DecidableEq

/-- The outcome of a scan during which nobody objects. -/
def VisitOutcome.ofScan (outcome : ScanOutcome) : VisitOutcome :=
  ⟨outcome.state, outcome.error.map .failed⟩

/-- Who makes scans with the same options, and what is kept from one to the next. -/
structure Enumerator where
  options : ScanOptions
  /-- The pattern for files that was settled last. -/
  filespec : Option Filespec
  /-- The rules that were settled last. -/
  rules : List IgnoreRule
  /-- How many files have passed the filters. -/
  entries : Nat

/-- The pattern for files that is asked for. -/
def ScanOptions.chosenFilespec (options : ScanOptions) : Except ScanError (Option Filespec) :=
  match options.filespec with
  | none => .ok none
  | some pattern => match Filespec.parse? pattern with
    | some filespec => .ok (some filespec)
    | none => .error (.badFilespec pattern)

/-- The rules for what is below a directory, if the options heed its list of ignore patterns together
with them. -/
def ScanOptions.chosenRules (options : ScanOptions) (world : FileTree) (directory : Path) :
    Except ScanError (List IgnoreRule) := do
  let listed ←
    if options.useGitignore then (listedRules world directory).mapError .unreadableIgnoreList
    else pure []
  return IgnoreRule.all listed options.ignore

namespace Enumerator

/-- An enumerator that has not scanned anything yet. -/
def new (options : ScanOptions) : Enumerator := ⟨options, none, [], 0⟩

/-- Gets ready for a scan of what is at a path, or says why it cannot begin. What was settled by then
is kept. The answer is what there is, and the directory from which on the rules see it. -/
def prepare (enumerator : Enumerator) (world : FileTree) (path : Path) :
    Except ScanError (FileTree × Path) × Enumerator :=
  match Scan.subject world path with
  | .error error => (.error error, enumerator)
  | .ok tree =>
    match enumerator.options.chosenFilespec with
    | .error error => (.error error, enumerator)
    | .ok filespec =>
      let enumerator := { enumerator with filespec }
      let target := world.realPath path
      let root := if world.isDirectory path then target else target.parent
      match enumerator.options.chosenRules world root with
      | .error error => (.error error, enumerator)
      | .ok rules => (.ok (tree, root), { enumerator with rules, entries := 0 })

/-- The walk by what was settled last. -/
def walk (enumerator : Enumerator) (root : Path) (faultsEnabled : Bool) : Walk :=
  ⟨root, enumerator.rules, enumerator.filespec, enumerator.options.maxDepth,
    enumerator.options.nonRecursive, faultsEnabled⟩

/-- Enters a finding in the books. A file counts before it is known whether there is room for it. -/
def enter (enumerator : Enumerator) : Finding → Enumerator
  | .problem _ => enumerator
  | .candidate _ _ => { enumerator with entries := enumerator.entries + 1 }

/-- Goes through findings, one after the other. How many files have passed the filters before is for
the enumerator to say. -/
def goThrough (audience : Audience) (root : Path) (enumerator : Enumerator) (state : ScanState) :
    List Finding → VisitOutcome × Enumerator
  | [] => (⟨state, none⟩, enumerator)
  | finding :: rest =>
    let begun := { state with entries := enumerator.entries }
    match begun.step enumerator.options.maxEntries root finding with
    | .error error => (⟨state, some (.failed error)⟩, enumerator.enter finding)
    | .ok next =>
      match audience.objection? state next with
      | some (told, reason) => (⟨told, some (.brokenOff reason)⟩, enumerator.enter finding)
      | none => goThrough audience root (enumerator.enter finding) next rest

/-- Makes a scan. -/
def scan (enumerator : Enumerator) (visit : Visit) : VisitOutcome × Enumerator :=
  match enumerator.prepare visit.world visit.path with
  | (.error error, left) => (⟨.start visit.path, some (.failed error)⟩, left)
  | (.ok (tree, root), ready) =>
    let target := visit.world.realPath visit.path
    ready.goThrough visit.audience root (.start target)
      ((ready.walk root visit.faultsEnabled).findings target 0 tree.sorted)

/-- Makes scans, one after the other, each with what the one before has left behind. -/
def scans (enumerator : Enumerator) : List Visit → List VisitOutcome × Enumerator
  | [] => ([], enumerator)
  | visit :: rest =>
    let (outcome, left) := enumerator.scan visit
    let (outcomes, last) := left.scans rest
    (outcome :: outcomes, last)

end Enumerator

end LineCensus
