/-
# What goes wrong in a scan

Almost everything that goes wrong in a scan is logged, counted and passed over. What a
scan logs is told about one finding after the other, so its log is that of the findings
it got to, and the number of errors is the length of that log.

Two things end a scan: a pattern that makes no sense, and too many files. There is a
third one. The list of ignore patterns is read before the walk begins, where a failure is
neither logged nor counted, and so a list that is there and cannot be read takes the
whole scan with it.
-/

import LineCensus.Proofs.Census.Selection

namespace LineCensus

/-! ## What is logged -/

/-- What a scan logs about a file, none if the file is counted or passed over. -/
def unreadableRecord? (path : Path) : Except CountError (Option FileCount) → Option LogRecord
  | .error (.unreadable failure) =>
    some ⟨.error, "Error counting lines in " ++ path.toString ++ ": " ++ failure.message⟩
  | _ => none

/-- What a scan logs about a finding. -/
def Finding.record? (root : Path) : Finding → Option LogRecord
  | problem record => some record
  | candidate path contents => unreadableRecord? path (countFile (some root) none path contents)

/-- A step logs what there is to be said about its finding, and counts it. -/
theorem ScanState.step_logs {maxEntries : Int} {root : Path} {state next : ScanState}
    {finding : Finding} (h : state.step maxEntries root finding = .ok next) :
    next.log = (finding.record? root).toList ++ state.log ∧
    next.report.errorCount = state.report.errorCount + (finding.record? root).toList.length := by
  cases finding with
  | problem record =>
      cases h
      exact ⟨rfl, rfl⟩
  | candidate path contents =>
      simp only [step, countCandidate] at h
      split at h
      · cases h
      · rcases countFile_cases (some root) none path contents with
          hnone | ⟨failure, herror⟩ | ⟨count, _, _, hsome, _, hdescribes⟩
        · rw [hnone] at h
          cases h
          simp [Finding.record?, hnone, unreadableRecord?]
        · rw [herror] at h
          cases h
          simp [Finding.record?, herror, unreadableRecord?, logProblem]
        · rw [hsome] at h
          cases h
          rw [recordFile_of_isBalanced _ hdescribes.isBalanced]
          simp [Finding.record?, hsome, unreadableRecord?]

/-- A run logs what there is to be said about the findings that it got to, the latest first, and
counts as many errors. -/
theorem ScanOutcome.ofFindings_logs (maxEntries : Int) (root : Path) (findings : List Finding)
    (state : ScanState) :
    let outcome := ofFindings maxEntries root state findings
    ∃ seen, seen <+: findings ∧ (outcome.error = none → seen = findings) ∧
      outcome.state.log = (seen.filterMap (Finding.record? root)).reverse ++ state.log ∧
      outcome.state.report.errorCount =
        state.report.errorCount + (seen.filterMap (Finding.record? root)).length := by
  induction findings generalizing state with
  | nil => exact ⟨[], List.prefix_rfl, fun _ => rfl, rfl, (Int.add_zero _).symm⟩
  | cons finding rest ih =>
      rw [ofFindings]
      cases hstep : state.step maxEntries root finding with
      | error error =>
          refine ⟨[], List.nil_prefix, fun hnone => ?_, rfl, (Int.add_zero _).symm⟩
          cases hnone
      | ok next =>
          obtain ⟨hlog, hcount⟩ := ScanState.step_logs hstep
          obtain ⟨seen, hprefix, hall, hseen, hcounted⟩ := ih next
          refine ⟨finding :: seen, List.cons_prefix_cons.mpr ⟨rfl, hprefix⟩, fun hnone => ?_,
            ?_, ?_⟩
          · rw [hall hnone]
          · rw [hseen, hlog]
            cases hrecord : finding.record? root <;> simp [hrecord]
          · rw [hcounted, hcount]
            cases hrecord : finding.record? root <;> simp [hrecord]
            omega

theorem Scan.run_logs (scan : Scan) :
    scan.run.state.report.errorCount = scan.run.state.log.length ∧
    ∃ seen, seen <+: scan.findings ∧ (scan.run.error = none → seen = scan.findings) ∧
      scan.run.state.log.reverse = seen.filterMap (Finding.record? scan.walk.root) := by
  obtain ⟨seen, hprefix, hall, hlog, hcount⟩ :=
    ScanOutcome.ofFindings_logs scan.maxEntries scan.walk.root scan.findings scan.start
  have hstart : scan.start.log = [] := rfl
  have hzero : scan.start.report.errorCount = 0 := rfl
  rw [hstart, List.append_nil] at hlog
  rw [hzero, Int.zero_add] at hcount
  refine ⟨?_, seen, hprefix, hall, ?_⟩
  · rw [run, hcount, hlog, List.length_reverse]
  · rw [run, hlog, List.reverse_reverse]

/-- A scan that gets to the end of its findings has counted every error among them. -/
theorem Scan.errorCount_run {scan : Scan} (h : scan.run.error = none) :
    scan.run.state.report.errorCount =
      (scan.findings.filterMap (Finding.record? scan.walk.root)).length := by
  obtain ⟨hcount, seen, _, hall, hlog⟩ := scan.run_logs
  rw [hcount, ← hall h, ← hlog, List.length_reverse]

/-! ## What is not -/

end LineCensus
