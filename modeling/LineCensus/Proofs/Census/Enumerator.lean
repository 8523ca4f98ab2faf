/-
# An enumerator carries nothing over

A scan settles everything that it goes by before it begins to walk, and whatever it
settles depends on the options and on what is there, not on what was kept. So an
enumerator scans as a new one would, whichever scans it has made and however they ended:
a scan that could not begin leaves old patterns or old rules behind, and one that was
broken off leaves its count of files, but the next scan asks for none of them.

The outcome is taken as a whole: the report as far as it got, the reason of an early end,
the files and lines that were told, and the log.
-/

import LineCensus.Census.Enumerator
import LineCensus.Proofs.Census.Selection

namespace LineCensus

/-! ## What a scan settles as it begins -/

namespace ScanOptions

theorem chosenFilespec_eq (options : ScanOptions) :
    options.chosenFilespec =
      match options.badFilespec? with
      | some pattern => .error (.badFilespec pattern)
      | none => .ok (options.filespec.bind Filespec.parse?) := by
  unfold chosenFilespec badFilespec?
  cases options.filespec with
  | none => rfl
  | some pattern => cases hspec : Filespec.parse? pattern <;> simp [hspec, Option.filter_some]

theorem chosenRules_eq (options : ScanOptions) (world : FileTree) (directory : Path) :
    options.chosenRules world directory =
      match heededRules world options directory with
      | .error failure => .error (.unreadableIgnoreList failure)
      | .ok listed => .ok (IgnoreRule.all listed options.ignore) := by
  unfold chosenRules heededRules
  cases options.useGitignore with
  | false => rfl
  | true => cases listedRules world directory <;> rfl

end ScanOptions

namespace Enumerator

/-- Getting ready for a scan of something that is there: what comes of it, and what is left behind. -/
theorem prepare_eq (enumerator : Enumerator) {world : FileTree} {path : Path} {tree : FileTree}
    (hpath : world.node path = .ok tree) :
    enumerator.prepare world path =
      match enumerator.options.badFilespec?,
        heededRules world enumerator.options (scanRoot world path) with
      | some pattern, _ => (.error (.badFilespec pattern), enumerator)
      | none, .error failure =>
        (.error (.unreadableIgnoreList failure),
          { enumerator with filespec := enumerator.options.filespec.bind Filespec.parse? })
      | none, .ok listed =>
        (.ok (tree, scanRoot world path),
          { enumerator with
            filespec := enumerator.options.filespec.bind Filespec.parse?
            rules := IgnoreRule.all listed enumerator.options.ignore
            entries := 0 }) := by
  have hrules := enumerator.options.chosenRules_eq world (scanRoot world path)
  rw [scanRoot] at hrules ⊢
  rw [prepare, Scan.subject_eq_ok_iff.mpr hpath, ScanOptions.chosenFilespec_eq]
  cases enumerator.options.badFilespec? with
  | some pattern => rfl
  | none =>
      simp only [hrules]
      cases heededRules world enumerator.options _ <;> rfl

/-- All that can come of getting ready. A scan that cannot begin fails for the reason for which the
scan of the tree does, whatever is left behind. One that can begin has settled everything anew. -/
theorem prepare_cases (enumerator : Enumerator) (world : FileTree) (path : Path) :
    (∃ error left, enumerator.prepare world path = (.error error, left) ∧
      left.options = enumerator.options ∧
      ∀ faultsEnabled, Scan.prepare world faultsEnabled enumerator.options path = .error error) ∨
    ∃ tree root filespec rules,
      enumerator.prepare world path = (.ok (tree, root), ⟨enumerator.options, filespec, rules, 0⟩) ∧
      ∀ faultsEnabled, Scan.prepare world faultsEnabled enumerator.options path =
        .ok ⟨world.realPath path, tree.sorted,
          (⟨enumerator.options, filespec, rules, 0⟩ : Enumerator).walk root faultsEnabled,
          enumerator.options.maxEntries⟩ := by
  cases hsubject : Scan.subject world path with
  | error error =>
      refine .inl ⟨error, enumerator, ?_, rfl, fun faultsEnabled => ?_⟩
      · rw [prepare, hsubject]
      · rw [Scan.prepare, hsubject]
        rfl
  | ok tree =>
      have hpath := Scan.subject_eq_ok_iff.mp hsubject
      have hready := enumerator.prepare_eq hpath
      have hscan := fun faultsEnabled => Scan.prepare_eq hpath faultsEnabled enumerator.options
      cases hspec : enumerator.options.badFilespec? with
      | some pattern =>
          rw [hspec] at hready hscan
          exact .inl ⟨_, _, hready, rfl, hscan⟩
      | none =>
          cases hlisted : heededRules world enumerator.options (scanRoot world path) with
          | error failure =>
              rw [hspec, hlisted] at hready hscan
              exact .inl ⟨_, _, hready, rfl, hscan⟩
          | ok listed =>
              rw [hspec, hlisted] at hready hscan
              exact .inr ⟨_, _, _, _, hready, hscan⟩

/-- What comes of a scan, in terms of the scan of the tree that is got ready. Nothing that was kept
comes into it. -/
theorem outcome_scan (enumerator : Enumerator) (visit : Visit) :
    (enumerator.scan visit).1 =
      match Scan.prepare visit.world visit.faultsEnabled enumerator.options visit.path with
      | .error error => ⟨.start visit.path, some (.failed error)⟩
      | .ok scan =>
        (goThrough visit.audience scan.walk.root
          ⟨enumerator.options, scan.walk.filespec, scan.walk.rules, 0⟩ scan.start scan.findings).1 := by
  rcases enumerator.prepare_cases visit.world visit.path with
    ⟨error, left, hready, _, hscan⟩ | ⟨tree, root, filespec, rules, hready, hscan⟩
  · rw [scan, hready, hscan]
  · rw [scan, hready, hscan]
    rfl

/-- A scan comes to what it would come to if it were the first one. -/
theorem scan_eq_scan_new (enumerator : Enumerator) (visit : Visit) :
    (enumerator.scan visit).1 = ((new enumerator.options).scan visit).1 := by
  rw [outcome_scan, outcome_scan]
  rfl

/-! ## What stays -/

@[simp]
theorem options_enter (enumerator : Enumerator) (finding : Finding) :
    (enumerator.enter finding).options = enumerator.options := by
  cases finding <;> rfl

theorem options_goThrough (audience : Audience) (root : Path) (enumerator : Enumerator)
    (state : ScanState) (findings : List Finding) :
    (enumerator.goThrough audience root state findings).2.options = enumerator.options := by
  induction findings generalizing enumerator state with
  | nil => rfl
  | cons finding rest ih =>
      rw [goThrough]
      split
      · exact options_enter enumerator finding
      · split
        · exact options_enter enumerator finding
        · exact (ih _ _).trans (options_enter enumerator finding)

/-- The options are those that an enumerator was sent out with. -/
theorem options_scan (enumerator : Enumerator) (visit : Visit) :
    (enumerator.scan visit).2.options = enumerator.options := by
  rcases enumerator.prepare_cases visit.world visit.path with
    ⟨error, left, hready, hleft, _⟩ | ⟨tree, root, filespec, rules, hready, _⟩
  · rw [scan, hready]
    exact hleft
  · rw [scan, hready]
    exact options_goThrough _ _ _ _ _

/-! ## Scans without objections -/

theorem objection?_patient (before after : ScanState) :
    Audience.patient.objection? before after = none := by
  unfold Audience.objection?
  split
  · rfl
  · exact ite_self none

/-- The enumerator counts the files as the scan does. -/
theorem entries_step {maxEntries : Int} {root : Path} {enumerator : Enumerator}
    {state next : ScanState} {finding : Finding} (hentries : state.entries = enumerator.entries)
    (h : state.step maxEntries root finding = .ok next) :
    next.entries = (enumerator.enter finding).entries := by
  cases finding with
  | problem record =>
      cases h
      exact hentries
  | candidate path contents =>
      have hone : state.entries + 1 = (enumerator.enter (.candidate path contents)).entries :=
        congrArg (· + 1) hentries
      simp only [ScanState.step, ScanState.countCandidate] at h
      split at h
      · cases h
      · split at h
        · cases h
          rw [← hone, ScanState.recordFile]
          split <;> rfl
        · cases h
          exact hone
        · cases h
          exact hone
        · cases h

/-- If nobody objects, going through findings is what a scan does with them. -/
theorem goThrough_patient (root : Path) {enumerator : Enumerator} {state : ScanState}
    (hentries : state.entries = enumerator.entries) (findings : List Finding) :
    (enumerator.goThrough .patient root state findings).1 =
      .ofScan (.ofFindings enumerator.options.maxEntries root state findings) := by
  induction findings generalizing enumerator state with
  | nil => rfl
  | cons finding rest ih =>
      have hbegun : { state with entries := enumerator.entries } = state := by
        rw [← hentries]
      rw [goThrough, ScanOutcome.ofFindings, hbegun]
      cases hstep : state.step enumerator.options.maxEntries root finding with
      | error error => rfl
      | ok next =>
          simp only [objection?_patient]
          rw [ih (entries_step hentries hstep), options_enter]

/-- If nobody objects, an enumerator makes the scan of the tree with its options. -/
theorem scan_patient (enumerator : Enumerator) (world : FileTree) (faultsEnabled : Bool)
    (path : Path) :
    (enumerator.scan ⟨world, faultsEnabled, path, .patient⟩).1 =
      .ofScan (scanTree world faultsEnabled enumerator.options path) := by
  rw [outcome_scan, scanTree]
  rcases enumerator.prepare_cases world path with ⟨error, _, _, _, hscan⟩ | ⟨_, _, _, _, _, hscan⟩
  · simp only [hscan]
    rfl
  · simp only [hscan]
    exact goThrough_patient _ rfl _

/-! ## One scan after another -/

/-- **An enumerator carries nothing from one scan to the next.** Whatever it keeps from before, and
however the scans before ended, the outcome of each scan is that of a new enumerator with the same
options which is sent to the same path at the same moment. If nobody objects, that is the scan of the
tree. -/
theorem scans_eq_map_scan_new (enumerator : Enumerator) (visits : List Visit) :
    (enumerator.scans visits).1 =
        visits.map (fun visit => ((new enumerator.options).scan visit).1) ∧
      ∀ world faultsEnabled path,
        ((new enumerator.options).scan ⟨world, faultsEnabled, path, .patient⟩).1 =
          .ofScan (scanTree world faultsEnabled enumerator.options path) := by
  refine ⟨?_, scan_patient (new enumerator.options)⟩
  induction visits generalizing enumerator with
  | nil => rfl
  | cons visit rest ih =>
      have hrest := ih (enumerator.scan visit).2
      rw [options_scan] at hrest
      rw [scans, List.map_cons, ← scan_eq_scan_new, ← hrest]

end Enumerator

end LineCensus
