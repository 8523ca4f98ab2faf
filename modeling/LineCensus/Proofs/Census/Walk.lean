/-
# What a walk comes across

A walk comes across files that are to be counted and across trouble, and across nothing
else. What it finds among several entries is what it finds at each of them, one after
the other, so a proof about a walk goes through the tree entry by entry.
-/

import LineCensus.Census.Walk
import LineCensus.Proofs.FileTree.Files

namespace LineCensus

/-- Whether a message says that something went wrong. -/
def LogRecord.isTrouble (record : LogRecord) : Bool :=
  record.level = .warning || record.level = .error

namespace Finding

/-- The file that was found and what is in it, none if there was trouble instead. -/
def candidate? : Finding → Option (Path × Contents)
  | problem _ => none
  | candidate path contents => some (path, contents)

/-- Whether a finding is a file or worth a warning. -/
def IsSound : Finding → Prop
  | problem record => record.isTrouble = true
  | candidate _ _ => True

/-- The files among findings. -/
def candidates (findings : List Finding) : List (Path × Contents) :=
  findings.filterMap candidate?

theorem mem_candidates {findings : List Finding} {path : Path} {contents : Contents} :
    (path, contents) ∈ candidates findings ↔ .candidate path contents ∈ findings := by
  rw [candidates, List.mem_filterMap]
  constructor
  · rintro ⟨finding, hmem, hfile⟩
    cases finding with
    | problem record => cases hfile
    | candidate path contents =>
        cases hfile
        exact hmem
  · intro hmem
    exact ⟨_, hmem, rfl⟩

end Finding

namespace Walk

variable (walk : Walk)

theorem entryFindings_eq_flatMap (path : Path) (depth : Nat) (entries : List (Name × FileTree)) :
    walk.entryFindings path depth entries =
      entries.flatMap fun entry => walk.entryFindings path depth [entry] := by
  induction entries with
  | nil => rfl
  | cons entry rest ih =>
      rw [List.flatMap_cons, ← ih]
      simp only [entryFindings, List.append_nil]

theorem entryFindings_append (path : Path) (depth : Nat) (first second : List (Name × FileTree)) :
    walk.entryFindings path depth (first ++ second) =
      walk.entryFindings path depth first ++ walk.entryFindings path depth second := by
  rw [entryFindings_eq_flatMap, List.flatMap_append, ← entryFindings_eq_flatMap,
    ← entryFindings_eq_flatMap]

/-- What is found at one entry stands between what is found before it and behind it. -/
theorem entryFindings_append_cons (path : Path) (depth : Nat) (entry : Name × FileTree)
    (before after : List (Name × FileTree)) :
    walk.entryFindings path depth (before ++ entry :: after) =
      walk.entryFindings path depth before ++ walk.entryFindings path depth [entry] ++
        walk.entryFindings path depth after := by
  rw [List.append_cons, entryFindings_append, entryFindings_append]

/-! ## Where findings come from -/

/-- A finding at a path stands in place of what is there, or is the file that is there, or was
found at an entry of the directory. -/
theorem findings_cases {path : Path} {depth : Nat} {tree : FileTree} {finding : Finding}
    (h : finding ∈ walk.findings path depth tree) :
    (∃ found, walk.barrier? path depth = some found ∧ finding ∈ found) ∨
    (∃ error, finding = failure "reading directory" path error) ∨
    tree.isRegular = true ∧ finding ∈ walk.candidates path tree ∨
    ∃ entries, tree = .directory entries ∧
      ∃ entry ∈ entries, finding ∈ walk.entryFindings path depth [entry] := by
  rw [findings.eq_def] at h
  split at h
  · next found hfound => exact .inl ⟨found, hfound, h⟩
  · split at h
    · next error _ => exact .inr (.inl ⟨error, List.mem_singleton.mp h⟩)
    · cases tree with
      | directory entries =>
          replace h : finding ∈ walk.entryFindings path depth entries := h
          rw [entryFindings_eq_flatMap, List.mem_flatMap] at h
          exact .inr (.inr (.inr ⟨entries, rfl, h⟩))
      | file _ | lockedFile =>
          by_cases hdepth : depth = 0
          · rw [if_pos hdepth] at h
            exact .inr (.inr (.inl ⟨rfl, h⟩))
          · rw [if_neg hdepth] at h
            exact absurd h List.not_mem_nil
      | lockedDirectory | link _ | special => exact absurd h List.not_mem_nil

/-- A finding at an entry is about its type, or is the file itself, or was found below it. -/
theorem entryFindings_cases {path : Path} {depth : Nat} {name : Name} {tree : FileTree}
    {finding : Finding} (h : finding ∈ walk.entryFindings path depth [(name, tree)]) :
    (∃ error, finding = failure "reading type for" (path.child name) error) ∨
    finding ∈ walk.candidates (path.child name) tree ∨
    finding ∈ walk.findings (path.child name) (depth + 1) tree := by
  simp only [entryFindings, List.append_nil] at h
  split at h
  · exact .inl ⟨_, List.mem_singleton.mp h⟩
  · cases tree with
    | directory _ | lockedDirectory =>
        by_cases hrecursive : walk.nonRecursive
        · simp [hrecursive] at h
        · simp only [hrecursive] at h
          exact .inr (.inr h)
    | file _ | lockedFile =>
        by_cases hignored : walk.ignores (path.child name) false
        · simp [hignored] at h
        · simp only [hignored] at h
          exact .inr (.inl h)
    | link _ | special => exact absurd h List.not_mem_nil

/-! ## Where files come from -/

theorem eq_of_mem_candidates {path found : Path} {tree : FileTree} {contents : Contents}
    (h : .candidate found contents ∈ walk.candidates path tree) : found = path := by
  rw [candidates] at h
  split at h
  · cases List.mem_singleton.mp h
    rfl
  · exact absurd h List.not_mem_nil

/-- What stands in place of the content of a directory is never a file. -/
theorem candidates_of_barrier? {path : Path} {depth : Nat} {found : List Finding}
    (h : walk.barrier? path depth = some found) : Finding.candidates found = [] := by
  rw [barrier?] at h
  split at h
  · cases h
    rfl
  · split at h
    · cases h
      rfl
    · split at h
      · cases h
        rfl
      · cases h

theorem candidate_not_mem_of_barrier? {path : Path} {depth : Nat} {found : List Finding}
    (h : walk.barrier? path depth = some found) (file : Path) (contents : Contents) :
    .candidate file contents ∉ found := by
  rw [← Finding.mem_candidates, walk.candidates_of_barrier? h]
  exact List.not_mem_nil

/-- Where there is neither a directory that can be listed nor a file, no file is found. -/
theorem candidates_findings_of_neither (path : Path) (depth : Nat) {tree : FileTree}
    (hdirectory : ∀ entries, tree ≠ .directory entries) (hfile : tree.isRegular = false) :
    Finding.candidates (walk.findings path depth tree) = [] := by
  refine List.eq_nil_iff_forall_not_mem.mpr ?_
  rintro ⟨found, contents⟩ hmem
  rcases walk.findings_cases (Finding.mem_candidates.mp hmem) with
    ⟨_, hfound, hcandidate⟩ | ⟨_, hfailure⟩ | ⟨hregular, _⟩ | ⟨_, hsame, _⟩
  · exact absurd hcandidate (walk.candidate_not_mem_of_barrier? hfound _ _)
  · cases hfailure
  · exact Bool.false_ne_true (hfile.symm.trans hregular)
  · exact hdirectory _ hsame

/-! ## All trouble is told -/

theorem isSound_failure (activity : String) (path : Path) (error : SystemError) :
    (failure activity path error).IsSound := rfl

theorem isSound_of_mem_candidates {path : Path} {tree : FileTree} {finding : Finding}
    (h : finding ∈ walk.candidates path tree) : finding.IsSound := by
  rw [candidates] at h
  split at h
  · rw [List.mem_singleton.mp h]
    trivial
  · exact absurd h List.not_mem_nil

theorem isSound_of_mem_barrier? {path : Path} {depth : Nat} {found : List Finding}
    (h : walk.barrier? path depth = some found) {finding : Finding} (hmem : finding ∈ found) :
    finding.IsSound := by
  rw [barrier?] at h
  split at h
  · cases h
    rw [List.mem_singleton.mp hmem]
    rfl
  · split at h
    · cases h
      exact absurd hmem List.not_mem_nil
    · split at h
      · cases h
        rw [List.mem_singleton.mp hmem]
        exact isSound_failure _ _ _
      · cases h

/-- Whatever a walk passes over is worth a warning. -/
theorem isSound_of_mem_findings {path : Path} {depth : Nat} {tree : FileTree} :
    ∀ {finding : Finding}, finding ∈ walk.findings path depth tree → finding.IsSound := by
  induction tree using FileTree.inductionOn generalizing path depth with
  | directory entries ih =>
      intro finding h
      rcases walk.findings_cases h with
        ⟨_, hfound, hmem⟩ | ⟨_, rfl⟩ | ⟨_, hfile⟩ | ⟨_, hsame, hentry⟩
      · exact walk.isSound_of_mem_barrier? hfound hmem
      · exact isSound_failure _ _ _
      · exact walk.isSound_of_mem_candidates hfile
      · cases hsame
        obtain ⟨⟨name, tree⟩, hmem, hat⟩ := hentry
        rcases walk.entryFindings_cases hat with ⟨_, rfl⟩ | hfile | hbelow
        · exact isSound_failure _ _ _
        · exact walk.isSound_of_mem_candidates hfile
        · exact ih _ hmem hbelow
  | leaf tree hleaf =>
      intro finding h
      rcases walk.findings_cases h with
        ⟨_, hfound, hmem⟩ | ⟨_, rfl⟩ | ⟨_, hfile⟩ | ⟨_, hsame, _⟩
      · exact walk.isSound_of_mem_barrier? hfound hmem
      · exact isSound_failure _ _ _
      · exact walk.isSound_of_mem_candidates hfile
      · exact absurd hsame (hleaf _)

end Walk

end LineCensus
