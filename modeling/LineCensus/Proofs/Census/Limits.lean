/-
# Narrower limits leave out whole directories

A limit on the depth of a walk, and a walk that stays in its root, cut off what is below
some directories and change nothing else. Where the limits allow a walk to look into a
directory, it finds there what it found without them, file by file; everywhere else it
finds no file at all.

So the report of a scan within narrower limits has the entries of the report within wider
ones for the directories that are allowed, each with the same totals. A scan for whose
files there was room goes on to have room for them.
-/

import LineCensus.Proofs.Census.Ignoring
import LineCensus.Proofs.Census.Lookup

namespace LineCensus

/-! ## Totals of some directories -/

namespace Directories

theorem isSorted_ofCounts (counts : List FileCount) : (ofCounts counts).IsSorted := by
  induction counts using List.reverseRecOn with
  | nil => exact Table.isSorted_empty
  | append_singleton counts count ih =>
      rw [ofCounts_concat]
      exact ih.change _ _

/-- The files in some directories make up the totals of those directories. -/
theorem ofCounts_filter (keep : Path → Bool) (counts : List FileCount) :
    ofCounts (counts.filter fun count => keep count.path.parent) =
      (ofCounts counts).restrict keep := by
  have hkeep : ∀ a b : Path, Table.SameKey a b → keep a = keep b :=
    fun _ _ hsame => congrArg keep (sameKey_path_iff.mp hsame)
  induction counts using List.reverseRecOn with
  | nil => rfl
  | append_singleton counts count ih =>
      rw [List.filter_append, ofCounts_concat, record,
        Table.restrict_change (isSorted_ofCounts counts) hkeep, ← ih, List.filter_singleton]
      by_cases hkept : keep count.path.parent = true
      · rw [if_pos hkept, hkept, cond_true, ofCounts_concat]
        rfl
      · rw [if_neg hkept, Bool.eq_false_iff.mpr hkept, cond_false, List.append_nil]

end Directories

/-- A file is counted under its own path, so its count is left out with it. -/
theorem countsOf_filter (root : Path) (keep : Path → Bool) (files : List (Path × Contents)) :
    countsOf root (files.filter fun file => keep file.1.parent) =
      (countsOf root files).filter fun count => keep count.path.parent := by
  rw [countsOf, List.filterMap_filter, countsOf, List.filter_filterMap]
  refine List.filterMap_congr fun file _ => ?_
  rcases countFile_cases (some root) none file.1 file.2 with
    hnone | ⟨failure, herror⟩ | ⟨count, _, _, hsome, hpath, _⟩
  · simp [hnone, Except.toOption]
  · simp [herror, Except.toOption]
  · simp [hsome, Except.toOption, Option.filter, hpath]

/-! ## Paths within a depth -/

namespace Path

/-- Whether a path is another one or at most so many steps below it. -/
def isWithin (root : Path) (depth : Int) (path : Path) : Bool :=
  (path.relativeTo? root).any fun way => way.names.length ≤ depth

@[simp]
theorem isWithin_below (root : Path) (depth : Int) (names : List Name) :
    isWithin root depth (root.below names) = decide (names.length ≤ depth) := by
  rw [isWithin, relativeTo?_below]
  rfl

end Path

/-! ## Walks within limits -/

namespace Walk

/-- The walk within other limits. -/
abbrev withLimits (walk : Walk) (maxDepth : Int) (nonRecursive : Bool) : Walk :=
  { walk with maxDepth, nonRecursive }

/-- Whether the limits of a walk allow it to look into a directory. -/
def allows (walk : Walk) (directory : Path) : Bool :=
  Path.isWithin walk.root walk.maxDepth directory &&
    (!walk.nonRecursive || directory = walk.root)

/-- The files among findings in directories that the limits allow to be looked into. -/
def allowed (walk : Walk) (findings : List Finding) : List (Path × Contents) :=
  (Finding.candidates findings).filter fun file => walk.allows file.1.parent

section

variable (walk : Walk)

theorem allows_below_iff {names : List Name} :
    walk.allows (walk.root.below names) = true ↔
      names.length ≤ walk.maxDepth ∧ (walk.nonRecursive = true → names = []) := by
  rw [allows, Path.isWithin_below, Bool.and_eq_true, decide_eq_true_eq, Bool.or_eq_true,
    Bool.not_eq_true', decide_eq_true_eq, Path.below_eq_self_iff]
  cases walk.nonRecursive <;> simp

/-- A directory is only allowed if the one that holds it is. -/
theorem allows_below_of_append {above names : List Name}
    (h : walk.allows (walk.root.below (above ++ names)) = true) :
    walk.allows (walk.root.below above) = true := by
  rw [allows_below_iff, List.length_append] at h
  rw [allows_below_iff]
  refine ⟨by omega, fun hdirect => ?_⟩
  exact (List.append_eq_nil_iff.mp (h.2 hdirect)).1

/-- A file that a walk comes across is below the path that it began at, or is that path. -/
theorem exists_below_of_mem_findings {path : Path} {depth : Nat} {tree : FileTree}
    {found : Path} {contents : Contents}
    (h : .candidate found contents ∈ walk.findings path depth tree) :
    ∃ names, found = path.below names ∧ (names = [] → tree.isRegular = true) := by
  induction tree using FileTree.inductionOn generalizing path depth with
  | directory entries ih =>
      rcases walk.findings_cases h with
        ⟨_, hfound, hmem⟩ | ⟨_, hfailure⟩ | ⟨hregular, _⟩ | ⟨_, hsame, ⟨name, tree⟩, hmem, hentry⟩
      · exact absurd hmem (walk.candidate_not_mem_of_barrier? hfound _ _)
      · cases hfailure
      · cases hregular
      · cases hsame
        rcases walk.entryFindings_cases hentry with ⟨_, hfailure⟩ | hfile | hbelow
        · cases hfailure
        · refine ⟨[name], walk.eq_of_mem_candidates hfile, fun hnil => ?_⟩
          cases hnil
        · obtain ⟨names, hnames, _⟩ := ih _ hmem hbelow
          refine ⟨name :: names, hnames.trans (path.below_child name names), fun hnil => ?_⟩
          cases hnil
  | leaf tree hleaf =>
      rcases walk.findings_cases h with
        ⟨_, hfound, hmem⟩ | ⟨_, hfailure⟩ | ⟨hregular, hfile⟩ | ⟨_, hsame, _⟩
      · exact absurd hmem (walk.candidate_not_mem_of_barrier? hfound _ _)
      · cases hfailure
      · exact ⟨[], (walk.eq_of_mem_candidates hfile).trans path.below_nil.symm, fun _ => hregular⟩
      · exact absurd hsame (hleaf _)

/-- Nothing is found in a directory that is not allowed, nor below it. -/
theorem allowed_findings_eq_nil (limits : Walk) {above : List Name}
    (h : ¬ limits.allows (limits.root.below above) = true) (depth : Nat)
    (entries : List (Name × FileTree)) :
    limits.allowed (walk.findings (limits.root.below above) depth (.directory entries)) = [] := by
  rw [allowed, List.filter_eq_nil_iff]
  rintro ⟨found, contents⟩ hmem hallowed
  obtain ⟨names, hnames, hne⟩ :=
    walk.exists_below_of_mem_findings (Finding.mem_candidates.mp hmem)
  have hbelow : names ≠ [] := fun hnil => Bool.false_ne_true (hne hnil)
  simp only [hnames] at hallowed
  rw [Path.below_below, Path.parent_below _ (List.append_ne_nil_of_right_ne_nil _ hbelow),
    List.dropLast_append_of_ne_nil hbelow] at hallowed
  exact h (limits.allows_below_of_append hallowed)

/-- Something stands in place of what is in a directory that is not allowed. -/
theorem exists_barrier?_of_not_allows {names : List Name}
    (h : ¬ walk.allows (walk.root.below names) = true) :
    ∃ found, walk.barrier? (walk.root.below names) names.length = some found := by
  rw [allows_below_iff] at h
  rw [barrier?]
  by_cases hdeep : walk.maxDepth < names.length
  · rw [if_pos hdeep]
    exact ⟨_, rfl⟩
  · have hclosed : walk.nonRecursive = true ∧ names ≠ [] := by
      rw [← Classical.not_imp]
      exact fun hdirect => h ⟨Int.not_lt.mp hdeep, hdirect⟩
    rw [if_neg hdeep, if_pos ⟨List.length_pos_iff.mpr hclosed.2, .inl hclosed.1⟩]
    exact ⟨_, rfl⟩

end

section

variable {walk : Walk} {maxDepth : Int} {nonRecursive : Bool}
  (hdepth : maxDepth ≤ walk.maxDepth) (hdirect : walk.nonRecursive = true → nonRecursive = true)

include hdepth hdirect

/-- Within the limits they make no difference. -/
theorem barrier?_withLimits (path : Path) {depth : Nat} (hnarrow : depth ≤ maxDepth)
    (hroot : nonRecursive = true → depth = 0) :
    (walk.withLimits maxDepth nonRecursive).barrier? path depth = walk.barrier? path depth := by
  have hwide : (depth : Int) ≤ walk.maxDepth := Int.le_trans hnarrow hdepth
  have hclosed : ∀ ignored : Prop, (0 < depth ∧ (nonRecursive = true ∨ ignored)) ↔
      (0 < depth ∧ (walk.nonRecursive = true ∨ ignored)) := by
    intro ignored
    refine and_congr_right fun hbelow => ?_
    have hopen : ¬ nonRecursive = true := fun hdirect => Nat.ne_of_gt hbelow (hroot hdirect)
    rw [or_iff_right hopen, or_iff_right (mt hdirect hopen)]
  have hignores : (walk.withLimits maxDepth nonRecursive).ignores path true =
      walk.ignores path true := rfl
  rw [barrier?, barrier?, if_neg (Int.not_lt.mpr hnarrow), if_neg (Int.not_lt.mpr hwide), hignores]
  simp only [hclosed]

/-- If the limits leave out at each entry what is not allowed, they do so in the directory. -/
theorem candidates_findings_withLimits (above : List Name) (entries : List (Name × FileTree))
    (hentries : (walk.withLimits maxDepth nonRecursive).allows (walk.root.below above) = true →
      ∀ entry ∈ entries,
        Finding.candidates ((walk.withLimits maxDepth nonRecursive).entryFindings
          (walk.root.below above) above.length [entry]) =
        (walk.withLimits maxDepth nonRecursive).allowed
          (walk.entryFindings (walk.root.below above) above.length [entry])) :
    Finding.candidates ((walk.withLimits maxDepth nonRecursive).findings (walk.root.below above)
        above.length (.directory entries)) =
      (walk.withLimits maxDepth nonRecursive).allowed
        (walk.findings (walk.root.below above) above.length (.directory entries)) := by
  by_cases hallowed :
      (walk.withLimits maxDepth nonRecursive).allows (walk.root.below above) = true
  · have hlisting : (walk.withLimits maxDepth nonRecursive).listingError? (walk.root.below above)
        (.directory entries) =
        walk.listingError? (walk.root.below above) (.directory entries) := rfl
    obtain ⟨hnarrow, hroot⟩ := (allows_below_iff _).mp hallowed
    rw [findings.eq_def, findings.eq_def walk, barrier?_withLimits hdepth hdirect _ hnarrow
      fun hdirect => List.length_eq_zero_iff.mpr (hroot hdirect), hlisting]
    cases hbarrier : walk.barrier? (walk.root.below above) above.length with
    | some found => simp only [allowed, walk.candidates_of_barrier? hbarrier, List.filter_nil]
    | none =>
        cases walk.listingError? (walk.root.below above) (.directory entries) with
        | some error => rfl
        | none =>
            simp only
            rw [entryFindings_eq_flatMap, entryFindings_eq_flatMap walk, Finding.candidates,
              List.filterMap_flatMap, allowed, Finding.candidates, List.filterMap_flatMap,
              List.filter_flatMap]
            exact List.flatMap_congr (hentries hallowed)
  · obtain ⟨found, hfound⟩ := exists_barrier?_of_not_allows _ hallowed
    rw [walk.allowed_findings_eq_nil (walk.withLimits maxDepth nonRecursive) hallowed,
      findings.eq_def, hfound]
    exact candidates_of_barrier? _ hfound

/-- At an entry of an allowed directory, narrower limits leave out the files in directories that
are not allowed, and no other ones. -/
theorem candidates_entryFindings_withLimits {above : List Name} (name : Name) (tree : FileTree)
    (h : (walk.withLimits maxDepth nonRecursive).allows (walk.root.below above) = true) :
    Finding.candidates ((walk.withLimits maxDepth nonRecursive).entryFindings
        (walk.root.below above) above.length [(name, tree)]) =
      (walk.withLimits maxDepth nonRecursive).allowed
        (walk.entryFindings (walk.root.below above) above.length [(name, tree)]) := by
  have htype : ∀ name, (walk.withLimits maxDepth nonRecursive).hasTypeFault name =
      walk.hasTypeFault name := fun _ => rfl
  induction tree using FileTree.inductionOn generalizing above name with
  | directory entries ih =>
      simp only [entryFindings, htype, Path.child_below, List.append_nil]
      by_cases hfault : walk.hasTypeFault name = true
      · simp only [if_pos hfault]
        rfl
      simp only [if_neg hfault]
      -- a walk that stays in its root does not come to the directory in the first place
      by_cases hnarrow : nonRecursive = true
      · have hclosed : ¬ (walk.withLimits maxDepth nonRecursive).allows
            (walk.root.below (above ++ [name])) = true := by
          intro hallowed
          have hroot := ((walk.withLimits maxDepth nonRecursive).allows_below_iff.mp hallowed).2
          exact List.concat_ne_nil _ _ (hroot hnarrow)
        rw [if_pos hnarrow]
        split
        · rfl
        · exact (walk.allowed_findings_eq_nil (walk.withLimits maxDepth nonRecursive)
            hclosed _ _).symm
      · rw [if_neg hnarrow, if_neg (mt hdirect hnarrow)]
        have hfound := candidates_findings_withLimits hdepth hdirect (above ++ [name]) entries
          fun hallowed entry hmem => ih entry hmem entry.1 hallowed
        rwa [List.length_append] at hfound
  | leaf tree hleaf =>
      simp only [entryFindings, htype, Path.child_below, List.append_nil]
      by_cases hfault : walk.hasTypeFault name = true
      · simp only [if_pos hfault]
        rfl
      simp only [if_neg hfault]
      cases tree with
      | directory entries => exact absurd rfl (hleaf entries)
      | file _ | lockedFile =>
          -- a file is in the directory above, whose limits it was found within
          symm
          refine List.filter_eq_self.mpr ?_
          rintro ⟨found, contents⟩ hmem
          rw [Finding.mem_candidates] at hmem
          dsimp only at hmem
          split at hmem
          · exact absurd hmem List.not_mem_nil
          · rw [walk.eq_of_mem_candidates hmem, ← Path.child_below, Path.parent_child]
            exact h
      | lockedDirectory =>
          have hnone : ∀ (walk : Walk) (direct : Prop) [Decidable direct] (path : Path) depth,
              Finding.candidates
                (if direct then [] else walk.findings path depth .lockedDirectory) = [] := by
            intro walk direct _ path depth
            split
            · rfl
            · exact walk.candidates_findings_of_neither _ _ hleaf rfl
          simp only [allowed, hnone, List.filter_nil]
      | link _ | special => rfl

/-- Narrower limits leave a file at which a walk begins, unless no depth is within them. -/
theorem candidates_findings_file_withLimits {path : Path} {tree : FileTree}
    (hregular : tree.isRegular = true) (hparent : path.parent = walk.root) :
    Finding.candidates ((walk.withLimits maxDepth nonRecursive).findings path 0 tree) =
      (walk.withLimits maxDepth nonRecursive).allowed (walk.findings path 0 tree) := by
  have hfile : ∀ walk : Walk, walk.findings path 0 tree =
      (walk.barrier? path 0).getD (walk.candidates path tree) := by
    intro walk
    rw [findings.eq_def]
    cases walk.barrier? path 0 with
    | some found => rfl
    | none => cases tree <;> first | rfl | cases hregular
  have hroot : (walk.withLimits maxDepth nonRecursive).allows path.parent = true ↔
      0 ≤ maxDepth := by
    rw [hparent, ← walk.root.below_nil]
    refine (allows_below_iff _).trans ⟨And.left, fun hzero => ⟨hzero, fun _ => rfl⟩⟩
  have hfound : ∀ file ∈ Finding.candidates (walk.findings path 0 tree), file.1 = path := by
    rintro ⟨found, contents⟩ hmem
    rw [hfile] at hmem
    cases hbarrier : walk.barrier? path 0 with
    | some found =>
        rw [hbarrier, Option.getD_some, walk.candidates_of_barrier? hbarrier] at hmem
        exact absurd hmem List.not_mem_nil
    | none =>
        rw [hbarrier, Option.getD_none] at hmem
        exact walk.eq_of_mem_candidates (Finding.mem_candidates.mp hmem)
  by_cases hzero : 0 ≤ maxDepth
  · have hkept : (walk.withLimits maxDepth nonRecursive).allowed (walk.findings path 0 tree) =
        Finding.candidates (walk.findings path 0 tree) := by
      refine List.filter_eq_self.mpr fun file hmem => ?_
      rw [hfound file hmem]
      exact hroot.mpr hzero
    rw [hkept, hfile, hfile, barrier?_withLimits hdepth hdirect path hzero fun _ => rfl]
    rfl
  · have hdropped : (walk.withLimits maxDepth nonRecursive).allowed (walk.findings path 0 tree) =
        [] := by
      refine List.filter_eq_nil_iff.mpr fun file hmem => ?_
      rw [hfound file hmem, hroot]
      exact hzero
    have hdeep : (walk.withLimits maxDepth nonRecursive).maxDepth < (0 : Nat) := Int.not_le.mp hzero
    rw [hdropped, hfile, barrier?, if_pos hdeep]
    rfl

end

end Walk

/-! ## Scans within limits -/

namespace Scan

/-- A scan that compares paths from the directory that it scans, or from the one that holds the
file that it scans. -/
structure IsRooted (scan : Scan) : Prop where
  target_eq : ∀ entries, scan.tree = .directory entries → scan.target = scan.walk.root
  parent_eq : scan.tree.isRegular = true → scan.target.parent = scan.walk.root

/-- The scan within other limits. -/
def withLimits (scan : Scan) (maxDepth : Int) (nonRecursive : Bool) : Scan :=
  { scan with walk := scan.walk.withLimits maxDepth nonRecursive }

theorem directories_run {scan : Scan} (h : scan.run.error = none) :
    scan.run.state.report.directories =
      .ofCounts (countsOf scan.walk.root (Finding.candidates scan.findings)) := by
  have hdirectories := scan.run_tallies.2.1.directories_eq
  rwa [List.take_of_length_le (error_run_eq_none_iff.mp h)] at hdirectories

section

variable {scan : Scan} (hrooted : scan.IsRooted)

include hrooted

/-- A scan within narrower limits finds the files in the directories that they allow. -/
theorem candidates_withLimits {maxDepth : Int} {nonRecursive : Bool}
    (hdepth : maxDepth ≤ scan.walk.maxDepth)
    (hdirect : scan.walk.nonRecursive = true → nonRecursive = true) :
    Finding.candidates (scan.withLimits maxDepth nonRecursive).findings =
      (scan.walk.withLimits maxDepth nonRecursive).allowed scan.findings := by
  show Finding.candidates ((scan.walk.withLimits maxDepth nonRecursive).findings scan.target 0
    scan.tree) = (scan.walk.withLimits maxDepth nonRecursive).allowed
      (scan.walk.findings scan.target 0 scan.tree)
  cases htree : scan.tree with
  | directory entries =>
      have hfound := Walk.candidates_findings_withLimits hdepth hdirect [] entries
        fun hallowed entry _ =>
          Walk.candidates_entryFindings_withLimits hdepth hdirect entry.1 entry.2 hallowed
      have htarget : scan.target = scan.walk.root := hrooted.target_eq entries htree
      rw [Path.below_nil, ← htarget] at hfound
      exact hfound
  | file _ | lockedFile =>
      have hregular : scan.tree.isRegular = true := by
        rw [htree]
        rfl
      have hparent := hrooted.parent_eq hregular
      rw [htree] at hregular
      exact Walk.candidates_findings_file_withLimits hdepth hdirect hregular hparent
  | lockedDirectory | link _ | special =>
      rw [Walk.allowed, Walk.candidates_findings_of_neither, Walk.candidates_findings_of_neither]
      · rfl
      all_goals first | rfl | exact fun _ hsame => FileTree.noConfusion hsame

/-- A scan within narrower limits is done if it is without them, and reports on the directories
that they allow. -/
theorem run_withLimits {maxDepth : Int} {nonRecursive : Bool}
    (hdepth : maxDepth ≤ scan.walk.maxDepth)
    (hdirect : scan.walk.nonRecursive = true → nonRecursive = true) (h : scan.run.error = none) :
    (scan.withLimits maxDepth nonRecursive).run.error = none ∧
    (scan.withLimits maxDepth nonRecursive).run.state.report.directories =
      scan.run.state.report.directories.restrict
        (scan.walk.withLimits maxDepth nonRecursive).allows := by
  have hcandidates := candidates_withLimits hrooted hdepth hdirect
  have hlimited : (scan.withLimits maxDepth nonRecursive).run.error = none := by
    rw [error_run_eq_none_iff] at h ⊢
    rw [hcandidates]
    exact (List.length_filter_le _ _).trans h
  refine ⟨hlimited, ?_⟩
  rw [directories_run hlimited, hcandidates, directories_run h, ← Directories.ofCounts_filter,
    ← countsOf_filter]
  rfl

/-- The directories in a report are allowed by the limits of the scan. -/
theorem allows_of_mem_directories (h : scan.run.error = none)
    {entry : Path × DirectoryStats} (hmem : entry ∈ scan.run.state.report.directories.entries) :
    scan.walk.allows entry.1 = true := by
  have hsame : scan.run.state.report.directories =
      scan.run.state.report.directories.restrict scan.walk.allows :=
    (run_withLimits hrooted (Int.le_refl _) id h).2
  rw [hsame] at hmem
  exact (List.mem_filter.mp hmem).2

/-- Where limits differ in one respect only, that one decides. -/
theorem directories_withLimits {maxDepth : Int} {nonRecursive : Bool}
    (hdepth : maxDepth ≤ scan.walk.maxDepth)
    (hdirect : scan.walk.nonRecursive = true → nonRecursive = true) (h : scan.run.error = none)
    {keep : Path → Bool}
    (hkeep : ∀ directory, scan.walk.allows directory = true →
      (scan.walk.withLimits maxDepth nonRecursive).allows directory = keep directory) :
    (scan.withLimits maxDepth nonRecursive).run.state.report.directories =
      scan.run.state.report.directories.restrict keep := by
  rw [(run_withLimits hrooted hdepth hdirect h).2, Table.restrict, Table.restrict]
  refine congrArg Table.mk (List.filter_congr fun entry hmem => ?_)
  exact hkeep entry.1 (allows_of_mem_directories hrooted h hmem)

end

/-- A scan that can begin is rooted, and can begin within any limits. -/
theorem prepare_withLimits {world : FileTree} {faultsEnabled : Bool} {options : ScanOptions}
    {path : Path} {scan : Scan} (h : prepare world faultsEnabled options path = .ok scan) :
    scan.IsRooted ∧ ∀ maxDepth nonRecursive,
      prepare world faultsEnabled { options with maxDepth, nonRecursive } path =
        .ok (scan.withLimits maxDepth nonRecursive) := by
  obtain ⟨tree, listed, hpath, hspec, hlisted, rfl⟩ := exists_of_prepare h
  refine ⟨⟨fun entries htree => ?_, fun hregular => ?_⟩, fun maxDepth nonRecursive => ?_⟩
  · show world.realPath path = scanRoot world path
    rw [scanRoot, FileTree.isDirectory, hpath]
    cases tree <;> first | rfl | cases htree
  · show (world.realPath path).parent = scanRoot world path
    rw [scanRoot, FileTree.isDirectory, hpath]
    cases tree <;> first | rfl | cases hregular
  · have hspec' : ScanOptions.badFilespec? { options with maxDepth, nonRecursive } = none := hspec
    have hlisted' : heededRules world { options with maxDepth, nonRecursive }
        (scanRoot world path) = .ok listed := hlisted
    rw [prepare_eq hpath, hspec', hlisted']
    rfl

end Scan

/-- **Narrower limits only leave out directories.** A scan that succeeds goes on to do so within a
smaller depth, and has the same totals for the directories that are no deeper and none for others.
If it does not descend at all, it has the totals of its root. -/
theorem scanTree_within_limits (world : FileTree) (faultsEnabled : Bool) (options : ScanOptions)
    (path : Path) (hreturns : (scanTree world faultsEnabled options path).error = none) :
    let report := (scanTree world faultsEnabled options path).state.report
    (∀ maxDepth ≤ options.maxDepth,
      let limited := scanTree world faultsEnabled { options with maxDepth } path
      limited.error = none ∧ limited.state.report.directories =
        report.directories.restrict (Path.isWithin (scanRoot world path) maxDepth)) ∧
    let direct := scanTree world faultsEnabled { options with nonRecursive := true } path
    direct.error = none ∧ direct.state.report.directories =
      report.directories.restrict fun directory => directory = scanRoot world path := by
  cases hprepare : Scan.prepare world faultsEnabled options path with
  | error error =>
      rw [scanTree, hprepare] at hreturns
      cases hreturns
  | ok scan =>
      obtain ⟨hrooted, hlimits⟩ := Scan.prepare_withLimits hprepare
      obtain ⟨tree, listed, _, _, _, hscan⟩ := Scan.exists_of_prepare hprepare
      have hroot : scan.walk.root = scanRoot world path := by rw [hscan]; rfl
      have hdepth : scan.walk.maxDepth = options.maxDepth := by rw [hscan]; rfl
      have hdirect : scan.walk.nonRecursive = options.nonRecursive := by rw [hscan]; rfl
      have hlimited : ∀ maxDepth nonRecursive,
          scanTree world faultsEnabled { options with maxDepth, nonRecursive } path =
            (scan.withLimits maxDepth nonRecursive).run := by
        intro maxDepth nonRecursive
        rw [scanTree, hlimits]
      have hrun : scanTree world faultsEnabled options path = scan.run := by
        rw [scanTree, hprepare]
      rw [hrun] at hreturns ⊢
      -- what the limits have in common the wider ones see to already
      refine ⟨fun maxDepth hnarrow => ?_, ?_⟩
      · have hwide : maxDepth ≤ scan.walk.maxDepth := hdepth ▸ hnarrow
        rw [hlimited maxDepth options.nonRecursive, ← hdirect, ← hroot]
        refine ⟨(Scan.run_withLimits hrooted hwide id hreturns).1,
          Scan.directories_withLimits hrooted hwide id hreturns fun directory hallowed => ?_⟩
        rw [Walk.allows, Bool.and_eq_true] at hallowed
        rw [Walk.allows, hallowed.2, Bool.and_true]
      · rw [hlimited options.maxDepth true, ← hdepth, ← hroot]
        have hsame : scan.walk.maxDepth ≤ scan.walk.maxDepth := Int.le_refl _
        refine ⟨(Scan.run_withLimits hrooted hsame (fun _ => rfl) hreturns).1,
          Scan.directories_withLimits hrooted hsame (fun _ => rfl) hreturns
            fun directory hallowed => ?_⟩
        rw [Walk.allows, Bool.and_eq_true] at hallowed
        rw [Walk.allows, hallowed.1, Bool.true_and, Bool.not_true, Bool.false_or]

/-- A scan of three directories, one below the other, cut off below the second and below the
first. -/
theorem scanTree_within_limits_of_three_directories :
    let world : FileTree := .directory [(⟨"home", by decide⟩, .directory
      [(⟨"a.py", by decide⟩, .file "a = 1\n".toUTF8),
        (⟨"b", by decide⟩, .directory [(⟨"b.py", by decide⟩, .file "b = 1\n".toUTF8),
          (⟨"c", by decide⟩, .directory [(⟨"c.py", by decide⟩, .file "c = 1\n".toUTF8)])])])]
    let path : Path := ⟨.slash, [⟨"home", by decide⟩]⟩
    let outcome := scanTree world false {} path
    let limited := scanTree world false { maxDepth := 1 } path
    let direct := scanTree world false { nonRecursive := true } path
    outcome.error = none ∧ limited.error = none ∧ direct.error = none ∧
      limited.state.report.directories =
        outcome.state.report.directories.restrict (Path.isWithin path 1) ∧
      direct.state.report.directories =
        outcome.state.report.directories.restrict fun directory => directory = path := by
  intro world path outcome limited direct
  have hpath : world.node path = .ok (.directory
      [(⟨"a.py", by decide⟩, .file "a = 1\n".toUTF8),
        (⟨"b", by decide⟩, .directory [(⟨"b.py", by decide⟩, .file "b = 1\n".toUTF8),
          (⟨"c", by decide⟩, .directory [(⟨"c.py", by decide⟩, .file "c = 1\n".toUTF8)])])]) := by
    simp [world, path, FileTree.node, FileTree.locate, FileTree.follow, FileTree.at?,
      FileTree.lookUp?, Name.up]
  have hroot : scanRoot world path = path := by
    rw [scanRoot_of_directory hpath]
    simp [world, path, FileTree.realPath, FileTree.locate, FileTree.follow, FileTree.at?,
      FileTree.lookUp?, Name.up]
  have hreturns : outcome.error = none :=
    scanTree_error_of_room hpath (by rintro _ ⟨⟩) rfl (by decide)
  obtain ⟨hdepths, hdirect, hroots⟩ := scanTree_within_limits world false {} path hreturns
  obtain ⟨hlimited, hwithin⟩ := hdepths 1 (by decide)
  rw [hroot] at hwithin hroots
  exact ⟨hreturns, hlimited, hdirect, hwithin, hroots⟩

end LineCensus
