/-
# More patterns leave out more

The patterns that a user gives come after all listed rules and none of them is negated.
So what the listed rules say matters only where no given pattern matches, and neither the
order of the given patterns nor a repetition among them makes a difference.

A walk by more patterns finds a part of what a walk by fewer does. Whether there is room
for a file, how it is counted and whether it causes an error do not depend on the patterns,
so a scan that succeeds goes on to do so with more of them, and all that can happen to its
files and its errors is that some are left out.
-/

import LineCensus.Proofs.Census.Failures

namespace LineCensus

open Text

/-! ## Given patterns among the rules -/

namespace IgnoreRule

theorem negated_of_ofPattern? {negated : Bool} {text : List Char} {rule : IgnoreRule}
    (h : ofPattern? negated text = some rule) : rule.negated = negated := by
  simp only [ofPattern?] at h
  split at h
  · cases h
  · cases h
    rfl

/-- The rules that patterns of the user spell. -/
def given (patterns : List String) : List IgnoreRule :=
  patterns.filterMap fun pattern => ofPattern? false pattern.toList

theorem all_eq_append_given (listed : List IgnoreRule) (patterns : List String) :
    all listed patterns = listed ++ given patterns := rfl

theorem negated_of_mem_given {patterns : List String} {rule : IgnoreRule}
    (h : rule ∈ given patterns) : rule.negated = false := by
  obtain ⟨_, _, hrule⟩ := List.mem_filterMap.mp h
  exact negated_of_ofPattern? hrule

/-- A path is left out if a given pattern matches it, and otherwise as the listed rules say. -/
theorem ignores_all (listed : List IgnoreRule) (patterns : List String) (way : List Char)
    (isDirectory : Bool) :
    ignores (all listed patterns) way isDirectory =
      ((given patterns).any (·.isMatch way isDirectory) || ignores listed way isDirectory) := by
  rw [all_eq_append_given, ignores, List.reverse_append, List.find?_append]
  cases hfound : (given patterns).reverse.find? (·.isMatch way isDirectory) with
  | none =>
      have hnone : (given patterns).any (·.isMatch way isDirectory) = false := by
        rw [← List.any_reverse, List.any_eq_false]
        exact List.find?_eq_none.mp hfound
      rw [hnone, Bool.false_or, Option.none_or]
      rfl
  | some rule =>
      have hmem : rule ∈ given patterns := List.mem_reverse.mp (List.mem_of_find?_eq_some hfound)
      have hmatch : (given patterns).any (·.isMatch way isDirectory) = true :=
        List.any_eq_true.mpr ⟨rule, hmem, by simpa using List.find?_some hfound⟩
      rw [hmatch, Bool.true_or, Option.some_or]
      simp only [negated_of_mem_given hmem, Bool.not_false]

/-- Whatever rules are listed, more patterns leave out no less. -/
theorem ignores_all_mono (listed : List IgnoreRule) {fewer more : List String} (h : fewer ⊆ more)
    {way : List Char} {isDirectory : Bool}
    (hignored : ignores (all listed fewer) way isDirectory = true) :
    ignores (all listed more) way isDirectory = true := by
  rw [ignores_all, Bool.or_eq_true] at hignored ⊢
  refine hignored.imp_left fun hgiven => ?_
  obtain ⟨rule, hrule, hmatch⟩ := List.any_eq_true.mp hgiven
  obtain ⟨pattern, hpattern, hspells⟩ := List.mem_filterMap.mp hrule
  exact List.any_eq_true.mpr ⟨rule, List.mem_filterMap.mpr ⟨pattern, h hpattern, hspells⟩, hmatch⟩

end IgnoreRule

/-! ## Walks by more rules -/

namespace Walk

/-- The walk that goes by other rules. -/
abbrev withRules (walk : Walk) (rules : List IgnoreRule) : Walk := { walk with rules }

theorem listingError?_withRules (walk : Walk) (rules : List IgnoreRule) (path : Path)
    (tree : FileTree) :
    (walk.withRules rules).listingError? path tree = walk.listingError? path tree := by
  cases tree <;> rfl

section

variable {walk : Walk} {more : List IgnoreRule}
  (h : ∀ way isDirectory, IgnoreRule.ignores walk.rules way isDirectory = true →
    IgnoreRule.ignores more way isDirectory = true)

include h

theorem ignores_withRules {path : Path} {isDirectory : Bool}
    (hignored : walk.ignores path isDirectory = true) :
    (walk.withRules more).ignores path isDirectory = true := by
  rw [ignores, Bool.or_eq_true] at hignored ⊢
  exact hignored.imp_right (h _ _)

/-- What stands in place of a path is what stands there by fewer rules, or it is nothing because
more rules leave the path out. -/
theorem barrier?_withRules (path : Path) (depth : Nat) :
    (walk.withRules more).barrier? path depth = some [] ∨
    (walk.withRules more).barrier? path depth = walk.barrier? path depth := by
  simp only [barrier?]
  by_cases hdeep : walk.maxDepth < depth
  · rw [if_pos hdeep, if_pos hdeep]
    exact .inr rfl
  · rw [if_neg hdeep, if_neg hdeep]
    by_cases hclosed :
        0 < depth ∧ (walk.nonRecursive = true ∨ (walk.withRules more).ignores path true = true)
    · exact .inl (if_pos hclosed)
    · have hopen : ¬ (0 < depth ∧ (walk.nonRecursive = true ∨ walk.ignores path true = true)) :=
        mt (And.imp_right (Or.imp_right (ignores_withRules h))) hclosed
      rw [if_neg hclosed, if_neg hopen]
      exact .inr rfl

/-- A file that more rules leave out was found or not, and every other one is found as before. -/
theorem candidates_sublist (path : Path) (tree : FileTree) :
    (if (walk.withRules more).ignores path false then []
      else walk.candidates path tree).Sublist
      (if walk.ignores path false then [] else walk.candidates path tree) := by
  by_cases hmore : (walk.withRules more).ignores path false = true
  · rw [if_pos hmore]
    exact List.nil_sublist _
  · rw [if_neg hmore, if_neg (mt (ignores_withRules h) hmore)]

/-- If no more is found below each entry, no more is found among the entries. -/
theorem entryFindings_sublist {entries : List (Name × FileTree)} (path : Path) (depth : Nat)
    (hentries : ∀ entry ∈ entries, ∀ path depth,
      ((walk.withRules more).findings path depth entry.2).Sublist
        (walk.findings path depth entry.2)) :
    ((walk.withRules more).entryFindings path depth entries).Sublist
      (walk.entryFindings path depth entries) := by
  induction entries with
  | nil =>
      rw [entryFindings]
      exact List.nil_sublist _
  | cons entry rest ih =>
      obtain ⟨name, tree⟩ := entry
      rw [List.forall_mem_cons] at hentries
      simp only [entryFindings]
      refine List.Sublist.append ?_ (ih hentries.2)
      have hfaults : (walk.withRules more).hasTypeFault name = walk.hasTypeFault name := rfl
      rw [hfaults]
      by_cases hfault : walk.hasTypeFault name = true
      · rw [if_pos hfault, if_pos hfault]
      · rw [if_neg hfault, if_neg hfault]
        cases tree with
        | directory _ | lockedDirectory =>
            by_cases hdirect : walk.nonRecursive = true
            · simp only [hdirect, ↓reduceIte, List.nil_sublist]
            · simp only [if_neg hdirect]
              exact hentries.1 _ _
        | file _ | lockedFile => exact candidates_sublist h _ _
        | link _ | special => exact List.nil_sublist _

/-- A walk by more rules finds a part of what a walk by fewer rules finds, in the same order. -/
theorem findings_sublist (path : Path) (depth : Nat) (tree : FileTree) :
    ((walk.withRules more).findings path depth tree).Sublist (walk.findings path depth tree) := by
  induction tree using FileTree.inductionOn generalizing path depth with
  | directory entries ih =>
      rw [findings.eq_def, findings.eq_def walk]
      rcases barrier?_withRules h path depth with hnothing | hsame
      · rw [hnothing]
        exact List.nil_sublist _
      · rw [hsame, listingError?_withRules]
        split
        · exact List.Sublist.refl _
        · split
          · exact List.Sublist.refl _
          · exact entryFindings_sublist h path depth ih
  | leaf tree hleaf =>
      rw [findings.eq_def, findings.eq_def walk]
      rcases barrier?_withRules h path depth with hnothing | hsame
      · rw [hnothing]
        exact List.nil_sublist _
      · rw [hsame, listingError?_withRules]
        cases tree with
        | directory entries => exact absurd rfl (hleaf entries)
        | _ => exact List.Sublist.refl _

end

end Walk

/-! ## Scans that find less -/

namespace Scan

section

variable {scan : Scan}

theorem error_run_eq_none_iff :
    scan.run.error = none ↔ (Finding.candidates scan.findings).length ≤ scan.maxEntries.toNat := by
  rw [scan.run_tallies.1, ← Nat.not_lt]
  split <;> simp [*]

theorem recorded_run (h : scan.run.error = none) :
    scan.run.state.recorded =
      (countsOf scan.walk.root (Finding.candidates scan.findings)).reverse := by
  have hrecorded := scan.run_tallies.2.1.recorded_eq
  rwa [List.take_of_length_le (error_run_eq_none_iff.mp h)] at hrecorded

/-- A scan that finds a part of what another one does is done if that one is, and has counted some
of its files and errors. -/
theorem run_of_sublist {other : Scan} (hfindings : other.findings.Sublist scan.findings)
    (hroom : other.maxEntries = scan.maxEntries) (hroot : other.walk.root = scan.walk.root)
    (h : scan.run.error = none) :
    other.run.error = none ∧
    other.run.state.recorded.Sublist scan.run.state.recorded ∧
    other.run.state.report.errorCount ≤ scan.run.state.report.errorCount := by
  have hcandidates : (Finding.candidates other.findings).Sublist
      (Finding.candidates scan.findings) := hfindings.filterMap _
  have hother : other.run.error = none := by
    rw [error_run_eq_none_iff] at h ⊢
    rw [hroom]
    exact hcandidates.length_le.trans h
  refine ⟨hother, ?_, ?_⟩
  · rw [recorded_run h, recorded_run hother, hroot]
    exact (hcandidates.filterMap _).reverse
  · rw [errorCount_run h, errorCount_run hother, hroot]
    exact_mod_cast (hfindings.filterMap _).length_le

end

end Scan

/-! ## Scans with more patterns -/

namespace Scan

/-- The scan that goes by other patterns, in a tree where some rules are listed. -/
def withPatterns (scan : Scan) (listed : List IgnoreRule) (patterns : List String) : Scan :=
  { scan with walk := scan.walk.withRules (IgnoreRule.all listed patterns) }

/-- The patterns of the user have no say in whether a scan can begin, and enter it as rules and in
no other way. -/
theorem prepare_ignore (world : FileTree) (faultsEnabled : Bool) (options : ScanOptions)
    (path : Path) :
    (∃ error, ∀ patterns,
      prepare world faultsEnabled { options with ignore := patterns } path = .error error) ∨
    ∃ (scan : Scan) (listed : List IgnoreRule), ∀ patterns,
      prepare world faultsEnabled { options with ignore := patterns } path =
        .ok (scan.withPatterns listed patterns) := by
  cases hsubject : subject world path with
  | error error =>
      left
      refine ⟨error, fun patterns => ?_⟩
      rw [prepare, hsubject]
      rfl
  | ok tree =>
      -- neither the pattern for files nor the listed rules depend on the patterns of the user
      have hspec : ∀ patterns, ScanOptions.badFilespec? { options with ignore := patterns } =
          options.badFilespec? := fun _ => rfl
      have hrules : ∀ patterns root, heededRules world { options with ignore := patterns } root =
          heededRules world options root := fun _ _ => rfl
      simp only [prepare_eq (subject_eq_ok_iff.mp hsubject), hspec, hrules]
      cases options.badFilespec? with
      | some pattern => exact .inl ⟨_, fun _ => rfl⟩
      | none =>
          cases heededRules world options (scanRoot world path) with
          | error failure => exact .inl ⟨_, fun _ => rfl⟩
          | ok listed =>
              right
              exact ⟨⟨_, _, options.walk (scanRoot world path) listed faultsEnabled, _⟩, listed,
                fun _ => rfl⟩

theorem findings_withPatterns_sublist (scan : Scan) (listed : List IgnoreRule)
    {fewer more : List String} (h : fewer ⊆ more) :
    (scan.withPatterns listed more).findings.Sublist (scan.withPatterns listed fewer).findings :=
  @Walk.findings_sublist (scan.walk.withRules (IgnoreRule.all listed fewer)) _
    (fun _ _ => IgnoreRule.ignores_all_mono listed h) _ _ _

/-- The same patterns in another order come to the same scan. -/
theorem run_withPatterns_of_perm (scan : Scan) (listed : List IgnoreRule)
    {patterns permuted : List String} (h : permuted.Perm patterns) :
    (scan.withPatterns listed permuted).run = (scan.withPatterns listed patterns).run := by
  have hfindings : (scan.withPatterns listed permuted).findings =
      (scan.withPatterns listed patterns).findings :=
    (scan.findings_withPatterns_sublist listed h.symm.subset).antisymm
      (scan.findings_withPatterns_sublist listed h.subset)
  rw [run, run, hfindings]
  rfl

end Scan

/-- Either a scan cannot begin whatever the patterns are, or the patterns enter it as rules. -/
theorem scanTree_ignore (world : FileTree) (faultsEnabled : Bool) (options : ScanOptions)
    (path : Path) :
    (∃ error, ∀ patterns,
      scanTree world faultsEnabled { options with ignore := patterns } path =
        ⟨.start path, some error⟩) ∨
    ∃ (scan : Scan) (listed : List IgnoreRule), ∀ patterns,
      scanTree world faultsEnabled { options with ignore := patterns } path =
        (scan.withPatterns listed patterns).run := by
  rcases Scan.prepare_ignore world faultsEnabled options path with
    ⟨error, herror⟩ | ⟨scan, listed, hscan⟩
  · exact .inl ⟨error, fun patterns => by rw [scanTree, herror]⟩
  · exact .inr ⟨scan, listed, fun patterns => by rw [scanTree, hscan]⟩

/-- **A further pattern can only leave out.** Wherever it stands among the patterns of the user and
whatever rules are listed in the tree, a scan that succeeds without it succeeds with it, and counts
some of the same files, in the same way, and of the same errors. The order of the patterns makes no
difference at all. -/
theorem scanTree_further_pattern (world : FileTree) (faultsEnabled : Bool) (options : ScanOptions)
    (path : Path) (hreturns : (scanTree world faultsEnabled options path).error = none) :
    (∀ before after, options.ignore = before ++ after → ∀ pattern,
      let outcome := scanTree world faultsEnabled options path
      let further := scanTree world faultsEnabled
        { options with ignore := before ++ pattern :: after } path
      further.error = none ∧ further.state.recorded.Sublist outcome.state.recorded ∧
        further.state.report.errorCount ≤ outcome.state.report.errorCount) ∧
    ∀ permuted, permuted.Perm options.ignore →
      scanTree world faultsEnabled { options with ignore := permuted } path =
        scanTree world faultsEnabled options path := by
  rcases scanTree_ignore world faultsEnabled options path with
    ⟨error, herror⟩ | ⟨scan, listed, hscan⟩
  · have hnone := (congrArg ScanOutcome.error (herror options.ignore)).symm.trans hreturns
    cases hnone
  · have hoptions : scanTree world faultsEnabled options path =
        (scan.withPatterns listed options.ignore).run := hscan options.ignore
    rw [hoptions] at hreturns ⊢
    refine ⟨fun before after hignore pattern => ?_, fun permuted hpermuted => ?_⟩
    · have hsubset : options.ignore ⊆ before ++ pattern :: after := by
        rw [hignore]
        exact ((List.sublist_cons_self pattern after).append_left before).subset
      rw [hscan]
      exact Scan.run_of_sublist (scan.findings_withPatterns_sublist listed hsubset) rfl rfl hreturns
    · rw [hscan, scan.run_withPatterns_of_perm listed hpermuted]

/-- A scan that has room for every file of a directory succeeds. -/
theorem scanTree_error_of_room {world : FileTree} {options : ScanOptions} {path : Path}
    {entries : List (Name × FileTree)} {listed : List IgnoreRule}
    (hpath : world.node path = .ok (.directory entries))
    (hspec : ∀ pattern ∈ options.filespec, (Filespec.parse? pattern).isSome = true)
    (hlisted : heededRules world options (world.realPath path) = .ok listed)
    (hroom : (FileTree.directory entries).files.length ≤ options.maxEntries.toNat) :
    (scanTree world false options path).error = none := by
  let walk := options.walk (world.realPath path) listed false
  have hlength : (walk.selection (.directory entries)).length ≤ options.maxEntries.toNat :=
    calc (walk.selection (.directory entries)).length
        ≤ (FileTree.directory entries).sorted.files.length := List.length_filter_le _ _
      _ = (FileTree.directory entries).files.length := (FileTree.sorted_files_perm _).length_eq
      _ ≤ options.maxEntries.toNat := hroom
  rw [scanTree, Scan.prepare_directory hpath hspec hlisted]
  exact (Scan.counts_run rfl rfl rfl).error_eq.trans (if_neg (Nat.not_lt.mpr hlength))

/-- A listed rule takes a file back in that another one leaves out, and a pattern of the user leaves
it out again. -/
theorem scanTree_further_pattern_over_negation :
    let world : FileTree := .directory [(⟨"home", by decide⟩, .directory
      [(⟨".gitignore", by decide⟩, .file "*.py\n!b.py\n".toUTF8),
        (⟨"a.py", by decide⟩, .file "a = 1\n".toUTF8),
        (⟨"b.py", by decide⟩, .file "b = 1\n".toUTF8),
        (⟨"c.rb", by decide⟩, .lockedFile)])]
    let path : Path := ⟨.slash, [⟨"home", by decide⟩]⟩
    let options : ScanOptions := { ignore := ["d", "c.*"], useGitignore := true }
    let outcome := scanTree world false options path
    let further := scanTree world false { options with ignore := ["d", "b.*", "c.*"] } path
    outcome.error = none ∧ further.error = none ∧
      further.state.recorded.Sublist outcome.state.recorded ∧
      further.state.report.errorCount ≤ outcome.state.report.errorCount ∧
      scanTree world false { options with ignore := ["c.*", "d"] } path = outcome := by
  intro world path options outcome further
  have hpath : world.node path = .ok (.directory
      [(⟨".gitignore", by decide⟩, .file "*.py\n!b.py\n".toUTF8),
        (⟨"a.py", by decide⟩, .file "a = 1\n".toUTF8),
        (⟨"b.py", by decide⟩, .file "b = 1\n".toUTF8),
        (⟨"c.rb", by decide⟩, .lockedFile)]) := by
    simp [world, path, FileTree.node, FileTree.locate, FileTree.follow, FileTree.at?,
      FileTree.lookUp?, Name.up]
  have hread : world.read ((world.realPath path).child ignoreListName) =
      .ok "*.py\n!b.py\n".toUTF8 := by
    simp [world, path, FileTree.read, FileTree.node, FileTree.realPath, FileTree.locate,
      FileTree.follow, FileTree.at?, FileTree.lookUp?, Name.up, Path.child, ignoreListName,
      FileTree.contents, bind, Except.bind]
  have hlist : ∃ listed, heededRules world options (world.realPath path) = .ok listed :=
    exists_heededRules fun _ _ => ⟨_, hread⟩
  obtain ⟨listed, hlisted⟩ := hlist
  have hreturns : outcome.error = none :=
    scanTree_error_of_room hpath (by rintro _ ⟨⟩) hlisted (by decide)
  obtain ⟨hfurther, hpermuted⟩ := scanTree_further_pattern world false options path hreturns
  obtain ⟨herror, hrecorded, hcount⟩ := hfurther ["d"] ["c.*"] rfl "b.*"
  exact ⟨hreturns, herror, hrecorded, hcount, hpermuted _ (.swap "d" "c.*" [])⟩

end LineCensus
