/-
# The books of a scan

A scan counts the files that its walk comes across until there are too many of them.
What it has come to is settled by the files that it got to: the totals are those of
recording their counts one by one, and the counters beside the totals agree with them.
They would differ over a file none of whose lines is classified, but there is no such
file, since counting keeps every line.

Messages are kept apart from all this. Each of them is worth a warning and each is
counted as it is logged.
-/

import LineCensus.Census.Scan
import LineCensus.Proofs.Census.Totals
import LineCensus.Proofs.Census.Walk
import Mathlib.Data.List.Induction

namespace LineCensus

open Text

/-! ## Counts that keep every line -/

namespace FileCount

/-- A count whose statistics describe as many lines as the file has. -/
structure IsBalanced (count : FileCount) : Prop where
  isCount_bucket : ∀ role, (count.bucket role).IsCount
  lines_stats : count.stats.lines = count.totalLines

theorem Describes.isBalanced {count : FileCount} {scanner : ScannerId} {lines : List Line}
    {roles : List CodeRole} (h : count.Describes scanner lines roles) : count.IsBalanced :=
  ⟨h.isCount_bucket, h.lines_stats⟩

/-- A file with lines in it always has something to record. -/
theorem IsBalanced.not_passedOver {count : FileCount} (h : count.IsBalanced) :
    ¬ (count.stats.isEmpty = true ∧ 0 < count.totalLines) := by
  rintro ⟨hempty, hpositive⟩
  have hcount : count.stats.IsCount :=
    (h.isCount_bucket .mainline).merge (h.isCount_bucket .test)
  have hlines := h.lines_stats
  rw [hcount.eq_zero_of_isEmpty hempty] at hlines
  have hzero : (0 : Int) = count.totalLines := hlines
  omega

end FileCount

/-- The counts of files, those left out whose language nobody counts or that cannot be read. -/
def countsOf (root : Path) (files : List (Path × Contents)) : List FileCount :=
  files.filterMap fun file => (countFile (some root) none file.1 file.2).toOption.join

theorem isBalanced_of_mem_countsOf {root : Path} {files : List (Path × Contents)}
    {count : FileCount} (h : count ∈ countsOf root files) : count.IsBalanced := by
  obtain ⟨file, _, hcount⟩ := List.mem_filterMap.mp h
  rcases countFile_cases (some root) none file.1 file.2 with
    hnone | ⟨_, herror⟩ | ⟨_, _, _, hsome, _, hdescribes⟩
  · rw [hnone] at hcount
    cases hcount
  · rw [herror] at hcount
    cases hcount
  · rw [hsome] at hcount
    cases hcount
    exact hdescribes.isBalanced

namespace Directories

/-- The totals of counts, each recorded in the directory of its file. -/
def ofCounts (counts : List FileCount) : Directories :=
  counts.foldl (fun directories count => directories.record count.path.parent count) .empty

theorem ofCounts_concat (counts : List FileCount) (count : FileCount) :
    ofCounts (counts ++ [count]) = (ofCounts counts).record count.path.parent count := by
  rw [ofCounts, List.foldl_concat, ofCounts]

theorem fileTotal_ofCounts (counts : List FileCount) :
    (ofCounts counts).fileTotal = counts.length := by
  induction counts using List.reverseRecOn with
  | nil => rfl
  | append_singleton counts count ih =>
      rw [ofCounts_concat, fileTotal_record, ih, List.length_append]
      rfl

/-- Where counts keep every line, the totals describe as many lines as the files have. -/
theorem lineTotal_ofCounts {counts : List FileCount} (h : ∀ count ∈ counts, count.IsBalanced) :
    (ofCounts counts).lineTotal = (counts.map (·.totalLines)).sum := by
  induction counts using List.reverseRecOn with
  | nil => rfl
  | append_singleton counts count ih =>
      rw [List.forall_mem_append, List.forall_mem_singleton] at h
      rw [ofCounts_concat, lineTotal_record, ih h.1, h.2.lines_stats, List.map_append,
        List.sum_append, Int.natCast_add]
      simp

theorem isConsistent_ofCounts {counts : List FileCount}
    (h : ∀ count ∈ counts, count.IsBalanced) :
    ∀ directory ∈ (ofCounts counts).values, directory.IsConsistent := by
  induction counts using List.reverseRecOn with
  | nil =>
      intro directory hmem
      exact absurd hmem List.not_mem_nil
  | append_singleton counts count ih =>
      rw [ofCounts_concat]
      rw [List.forall_mem_append, List.forall_mem_singleton] at h
      exact isConsistent_record (ih h.1) _ h.2.isCount_bucket

end Directories

namespace ScanState

/-! ## What the files of a scan come to -/

/-- A state whose books are those of some files and of no others. -/
structure Tallies (state : ScanState) (root : Path) (files : List (Path × Contents)) : Prop where
  entries_eq : state.entries = files.length
  directories_eq : state.report.directories = .ofCounts (countsOf root files)
  filesProcessed_eq : state.report.filesProcessed = (countsOf root files).length
  linesProcessed_eq :
    state.report.linesProcessed = ((countsOf root files).map (·.totalLines)).sum
  recorded_eq : state.recorded = (countsOf root files).reverse
  progress_eq : state.progress = ((countsOf root files).map (·.totalLines)).reverse

theorem tallies_start (root path : Path) : (start path).Tallies root [] :=
  ⟨rfl, rfl, rfl, rfl, rfl, rfl⟩

theorem Tallies.logProblem {state : ScanState} {root : Path} {files : List (Path × Contents)}
    (h : state.Tallies root files) (record : LogRecord) :
    (state.logProblem record).Tallies root files :=
  ⟨h.entries_eq, h.directories_eq, h.filesProcessed_eq, h.linesProcessed_eq, h.recorded_eq,
    h.progress_eq⟩

/-- A state with one more file that passed the filters. -/
def enter (state : ScanState) : ScanState := { state with entries := state.entries + 1 }

theorem recordFile_of_isBalanced (state : ScanState) {count : FileCount}
    (h : count.IsBalanced) :
    state.recordFile count =
      { state with
        report :=
          { state.report with
            filesProcessed := state.report.filesProcessed + 1
            linesProcessed := state.report.linesProcessed + count.totalLines
            directories := state.report.directories.record count.path.parent count }
        recorded := count :: state.recorded
        progress := count.totalLines :: state.progress } := by
  rw [recordFile, if_neg h.not_passedOver]

variable {state : ScanState} {root : Path} {files : List (Path × Contents)}

/-- A file that is not counted only takes up room. -/
theorem Tallies.enter_of_not_counted (h : state.Tallies root files) {file : Path × Contents}
    (hfile : countsOf root [file] = []) : state.enter.Tallies root (files ++ [file]) := by
  have hcounts : countsOf root (files ++ [file]) = countsOf root files := by
    rw [countsOf, List.filterMap_append]
    exact (congrArg _ hfile).trans (List.append_nil _)
  constructor
  · rw [List.length_append]
    exact congrArg (· + 1) h.entries_eq
  all_goals rw [hcounts]
  · exact h.directories_eq
  · exact h.filesProcessed_eq
  · exact h.linesProcessed_eq
  · exact h.recorded_eq
  · exact h.progress_eq

theorem Tallies.recordFile (h : state.Tallies root files) {file : Path × Contents}
    {count : FileCount} (hfile : countsOf root [file] = [count]) :
    (state.enter.recordFile count).Tallies root (files ++ [file]) := by
  have hcounts : countsOf root (files ++ [file]) = countsOf root files ++ [count] := by
    rw [countsOf, List.filterMap_append]
    exact congrArg _ hfile
  have hbalanced : count.IsBalanced :=
    isBalanced_of_mem_countsOf (hfile ▸ List.mem_singleton_self count)
  rw [recordFile_of_isBalanced _ hbalanced]
  constructor
  · rw [List.length_append]
    exact congrArg (· + 1) h.entries_eq
  all_goals rw [hcounts]
  · rw [Directories.ofCounts_concat, ← h.directories_eq]
    rfl
  · show state.report.filesProcessed + 1 = _
    rw [h.filesProcessed_eq, List.length_append]
    rfl
  · show state.report.linesProcessed + _ = _
    rw [h.linesProcessed_eq, List.map_append, List.sum_append]
    simp
  · rw [List.reverse_append, ← h.recorded_eq]
    rfl
  · rw [List.map_append, List.reverse_append, ← h.progress_eq]
    rfl

/-! ## What the messages of a scan come to -/

/-- Whether the problems that were counted are those that were logged. -/
def LogAddsUp (state : ScanState) : Prop :=
  state.report.errorCount = state.log.countP (·.isTrouble)

theorem LogAddsUp.logProblem (h : state.LogAddsUp) {record : LogRecord}
    (hrecord : record.isTrouble = true) : (state.logProblem record).LogAddsUp := by
  show state.report.errorCount + 1 = ((record :: state.log).countP (·.isTrouble) : Nat)
  rw [List.countP_cons_of_pos hrecord, h, Int.natCast_add]
  rfl

/-! ## One step and the whole run -/

/-- With room for it, a file is counted, passed over, or told to be unreadable. -/
theorem countCandidate_of_room {maxEntries : Int} (hroom : state.entries + 1 ≤ maxEntries)
    (htallies : state.Tallies root files) (hlog : state.LogAddsUp) (path : Path)
    (contents : Contents) :
    ∃ next, state.countCandidate maxEntries root path contents = .ok next ∧
      next.Tallies root (files ++ [(path, contents)]) ∧ next.LogAddsUp := by
  have hentered : ¬ maxEntries < ((state.entries + 1 : Nat) : Int) := by omega
  simp only [countCandidate, if_neg hentered]
  rcases countFile_cases (some root) none path contents with
    hnone | ⟨failure, herror⟩ | ⟨count, _, _, hsome, _, hdescribes⟩
  · rw [hnone]
    refine ⟨_, rfl, htallies.enter_of_not_counted ?_, hlog⟩
    simp [countsOf, hnone, Except.toOption]
  · rw [herror]
    have henteredLog : state.enter.LogAddsUp := hlog
    refine ⟨_, rfl, (htallies.enter_of_not_counted ?_).logProblem _, henteredLog.logProblem rfl⟩
    simp [countsOf, herror, Except.toOption]
  · rw [hsome]
    refine ⟨_, rfl, htallies.recordFile ?_, ?_⟩
    · simp [countsOf, hsome, Except.toOption]
    · rw [recordFile_of_isBalanced _ hdescribes.isBalanced]
      exact hlog

theorem countCandidate_of_full {maxEntries : Int} (hfull : maxEntries < state.entries + 1)
    (root path : Path) (contents : Contents) :
    state.countCandidate maxEntries root path contents = .error .tooManyEntries := by
  rw [countCandidate]
  exact if_pos hfull

end ScanState

namespace ScanOutcome

/-- A run gets to as many files as there is room for, and ends early if and only if there are
more. -/
theorem ofFindings_tallies (maxEntries : Int) (root : Path) (findings : List Finding)
    (hsound : ∀ finding ∈ findings, finding.IsSound) {state : ScanState}
    {files : List (Path × Contents)} (htallies : state.Tallies root files)
    (hlog : state.LogAddsUp) :
    let outcome := ofFindings maxEntries root state findings
    let room := (maxEntries - files.length).toNat
    outcome.error =
      (if room < (Finding.candidates findings).length then some .tooManyEntries else none) ∧
    outcome.state.Tallies root (files ++ (Finding.candidates findings).take room) ∧
    outcome.state.LogAddsUp := by
  induction findings generalizing state files with
  | nil => exact ⟨rfl, by simpa [Finding.candidates, ofFindings] using htallies, hlog⟩
  | cons finding rest ih =>
      rw [List.forall_mem_cons] at hsound
      have hentries := htallies.entries_eq
      cases finding with
      | problem record =>
          exact ih hsound.2 (htallies.logProblem record) (hlog.logProblem hsound.1)
      | candidate path contents =>
          have hcandidates : Finding.candidates (.candidate path contents :: rest) =
              (path, contents) :: Finding.candidates rest := rfl
          by_cases hroom : (state.entries : Int) + 1 ≤ maxEntries
          · obtain ⟨next, hnext, hnextTallies, hnextLog⟩ :=
              ScanState.countCandidate_of_room hroom htallies hlog path contents
            -- a file takes up room whether or not it can be counted
            have hmore : (maxEntries - files.length).toNat =
                (maxEntries - (files ++ [(path, contents)]).length).toNat + 1 := by
              rw [List.length_append, List.length_singleton]
              omega
            obtain ⟨herror, hdone, hdoneLog⟩ := ih hsound.2 hnextTallies hnextLog
            simp only [ofFindings, ScanState.step, hnext]
            rw [hcandidates, hmore, List.take_succ_cons]
            refine ⟨?_, ?_, hdoneLog⟩
            · rw [herror, List.length_cons]
              simp only [Nat.add_lt_add_iff_right]
            · rwa [List.append_assoc] at hdone
          · have hnone : (maxEntries - files.length).toNat = 0 := by omega
            simp only [ofFindings, ScanState.step,
              ScanState.countCandidate_of_full (by omega : maxEntries < state.entries + 1)]
            rw [hcandidates, hnone]
            refine ⟨rfl, ?_, hlog⟩
            rwa [List.take_zero, List.append_nil]

end ScanOutcome

namespace Scan

theorem run_tallies (scan : Scan) :
    scan.run.error =
      (if scan.maxEntries.toNat < (Finding.candidates scan.findings).length
        then some .tooManyEntries else none) ∧
    scan.run.state.Tallies scan.walk.root
      ((Finding.candidates scan.findings).take scan.maxEntries.toNat) ∧
    scan.run.state.LogAddsUp := by
  have hrun := ScanOutcome.ofFindings_tallies scan.maxEntries scan.walk.root scan.findings
    (fun _ => scan.walk.isSound_of_mem_findings)
    (ScanState.tallies_start scan.walk.root scan.target) rfl
  rwa [List.length_nil, Int.natCast_zero, Int.sub_zero] at hrun

end Scan

theorem exists_tallies_scanTree (world : FileTree) (faultsEnabled : Bool) (options : ScanOptions)
    (path : Path) :
    ∃ root files, (scanTree world faultsEnabled options path).state.Tallies root files ∧
      (scanTree world faultsEnabled options path).state.LogAddsUp := by
  rw [scanTree]
  split
  · next scan _ => exact ⟨_, _, scan.run_tallies.2⟩
  · exact ⟨path, [], ScanState.tallies_start path path, rfl⟩

/-- **The books of a scan balance.** In every directory the roles make up the languages, the totals
over all directories are what the counters beside them say, every counted file is reported once,
and every problem that was counted was logged. This also holds where a scan ended early. -/
theorem scanTree_balances (world : FileTree) (faultsEnabled : Bool) (options : ScanOptions)
    (path : Path) :
    let state := (scanTree world faultsEnabled options path).state
    (∀ directory ∈ state.report.directories.values, directory.RolesAddUp) ∧
    state.report.grandTotal.lines = state.report.linesProcessed ∧
    state.report.directories.fileTotal = state.report.filesProcessed ∧
    state.progress.length = state.report.filesProcessed ∧
    (state.progress.sum : Int) = state.report.linesProcessed ∧
    state.recorded.length = state.report.filesProcessed ∧
    state.report.errorCount = state.log.countP (·.isTrouble) := by
  obtain ⟨root, files, htallies, hlog⟩ := exists_tallies_scanTree world faultsEnabled options path
  have hbalanced : ∀ count ∈ countsOf root files, count.IsBalanced :=
    fun _ => isBalanced_of_mem_countsOf
  intro state
  refine ⟨fun directory hmem => ?_, ?_, ?_, ?_, ?_, ?_, hlog⟩
  · rw [htallies.directories_eq] at hmem
    exact (Directories.isConsistent_ofCounts hbalanced directory hmem).rolesAddUp
  · rw [ScanReport.grandTotal, Directories.lines_grandTotal, htallies.directories_eq,
      Directories.lineTotal_ofCounts hbalanced, htallies.linesProcessed_eq]
  · rw [htallies.directories_eq, Directories.fileTotal_ofCounts, htallies.filesProcessed_eq]
  · rw [htallies.progress_eq, List.length_reverse, List.length_map, htallies.filesProcessed_eq]
  · rw [htallies.progress_eq, List.sum_reverse, htallies.linesProcessed_eq]
  · rw [htallies.recorded_eq, List.length_reverse, htallies.filesProcessed_eq]

end LineCensus
