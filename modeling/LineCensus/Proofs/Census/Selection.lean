/-
# The files that a scan selects

A walk decides about depth, exclusion, ignore rules and the file specification while it
goes through a tree, each at its own moment. Here the same files are described at once,
by conditions on the names that lead to a file: what must hold of every directory on
the way, and what must hold of the file. A scan counts the files so described in the
order of their paths, as many as it is allowed to.

Neither the conditions nor the order refers to the order in which a directory lists its
entries, so nothing that a scan counts depends on it.
-/

import LineCensus.Proofs.Census.Scan

namespace LineCensus

namespace Path

/-- The path that names lead to from the working directory. -/
def ofNames (names : List Name) : Path := ⟨.relative, names⟩

/-- The path that names lead to from another path. -/
def below (path : Path) (names : List Name) : Path :=
  { path with names := path.names ++ names }

@[simp]
theorem below_nil (path : Path) : path.below [] = path := by
  rw [below, List.append_nil]

theorem child_below (path : Path) (names : List Name) (name : Name) :
    (path.below names).child name = path.below (names ++ [name]) := by
  rw [below, child, below, List.append_assoc]

@[simp]
theorem below_eq_self_iff {path : Path} {names : List Name} :
    path.below names = path ↔ names = [] := by
  constructor
  · intro h
    exact List.append_right_eq_self.mp (congrArg Path.names h)
  · rintro rfl
    exact path.below_nil

theorem below_below (path : Path) (names more : List Name) :
    (path.below names).below more = path.below (names ++ more) := by
  rw [below, below, below, List.append_assoc]

theorem below_child (path : Path) (name : Name) (names : List Name) :
    (path.child name).below names = path.below (name :: names) := by
  rw [below, child, below, List.append_assoc]
  rfl

theorem parent_below (path : Path) {names : List Name} (h : names ≠ []) :
    (path.below names).parent = path.below names.dropLast := by
  rw [parent, below, below, List.dropLast_append_of_ne_nil h]

theorem isPrefixOf?_append (first second : List Name) :
    first.isPrefixOf? (first ++ second) = some second := by
  induction first with
  | nil => rfl
  | cons name rest ih =>
      rw [List.cons_append, List.isPrefixOf?, if_pos (beq_self_eq_true name), ih]

@[simp]
theorem relativeTo?_below (path : Path) (names : List Name) :
    (path.below names).relativeTo? path = some (ofNames names) := by
  have hway : path.names.isPrefixOf? (path.below names).names = some names :=
    isPrefixOf?_append path.names names
  rw [relativeTo?, if_pos (by rfl), hway]
  rfl

theorem name_below (path : Path) {names : List Name} (h : names ≠ []) :
    (path.below names).name = (ofNames names).name := by
  rw [Path.name, Path.name, below, List.getLast?_append_of_ne_nil _ h]
  rfl

end Path

namespace Walk

/-! ## Conditions on names -/

section

variable (walk : Walk) (names : List Name)

/-- Whether a directory below the root is entered. -/
def Enters : Prop :=
  names.length ≤ walk.maxDepth ∧
  (Path.ofNames names).name ∉ excludedDirectories ∧
  IgnoreRule.ignores walk.rules (Path.ofNames names).toString.toList true = false

/-- Whether a file is counted once it is come across. -/
def Takes : Prop :=
  IgnoreRule.ignores walk.rules (Path.ofNames names).toString.toList false = false ∧
  walk.filespec.all (fun spec =>
    spec.glob.isMatch (Path.ofNames names).name.toList ||
      spec.glob.isMatch (Path.ofNames names).toString.toList) = true

/-- Whether a file is counted: every directory on the way to it is entered, and the file is
taken. -/
def Admits : Prop :=
  0 ≤ walk.maxDepth ∧
  (walk.nonRecursive = true → names.length = 1) ∧
  (∀ depth < names.length, 0 < depth → walk.Enters (names.take depth)) ∧
  walk.Takes names

instance : Decidable (walk.Enters names) := inferInstanceAs (Decidable (_ ∧ _))

instance : Decidable (walk.Takes names) := inferInstanceAs (Decidable (_ ∧ _))

instance : Decidable (walk.Admits names) := inferInstanceAs (Decidable (_ ∧ _))

end

/-- The files of a tree that are counted, in the order in which they are. -/
def selection (walk : Walk) (tree : FileTree) : List (List Name × FileTree) :=
  tree.sorted.files.filter fun file => walk.Admits file.1

/-- What makes a list of files the selection from a tree, whatever order the tree is in. -/
structure IsSelection (walk : Walk) (tree : FileTree) (chosen : List (List Name × FileTree)) :
    Prop where
  ascend : chosen.Pairwise fun a b => Name.Ascend a.1 b.1
  mem_iff (names : List Name) (file : FileTree) : (names, file) ∈ chosen ↔
    tree.at? names = some file ∧ file.isRegular = true ∧ walk.Admits names

theorem isSelection_selection (walk : Walk) {tree : FileTree} (h : tree.ListsNamesOnce) :
    walk.IsSelection tree (walk.selection tree) where
  ascend := (FileTree.ascend_files_sorted h).filter _
  mem_iff names file := by
    rw [selection, List.mem_filter, decide_eq_true_eq, tree.sorted_files_perm.mem_iff,
      FileTree.mem_files_iff h, and_assoc]

/-- There is but one selection from trees in which the same names lead to the same files. -/
theorem IsSelection.unique {walk : Walk} {tree other : FileTree}
    {chosen others : List (List Name × FileTree)}
    (hsame : ∀ names file, file.isRegular = true →
      (tree.at? names = some file ↔ other.at? names = some file))
    (h : walk.IsSelection tree chosen) (hother : walk.IsSelection other others) :
    chosen = others := by
  have hdiffer : ∀ {a b : List Name × FileTree}, Name.Ascend a.1 b.1 → a ≠ b := by
    rintro a _ hab rfl
    exact hab.asymm hab
  refine List.Perm.eq_of_pairwise (fun a b _ _ hab hba => ?_) h.ascend hother.ascend ?_
  · exact absurd hba hab.asymm
  · rw [List.perm_ext_iff_of_nodup (h.ascend.imp hdiffer) (hother.ascend.imp hdiffer)]
    rintro ⟨names, file⟩
    rw [h.mem_iff, hother.mem_iff]
    constructor
    · rintro ⟨hat, hregular, hadmits⟩
      exact ⟨(hsame names file hregular).mp hat, hregular, hadmits⟩
    · rintro ⟨hat, hregular, hadmits⟩
      exact ⟨(hsame names file hregular).mpr hat, hregular, hadmits⟩

/-- The order in which directories list their entries makes no difference to the selection. -/
theorem selection_eq_of_same_files (walk : Walk) {tree other : FileTree}
    (h : tree.ListsNamesOnce) (hother : other.ListsNamesOnce)
    (hsame : ∀ names file, file.isRegular = true →
      (tree.at? names = some file ↔ other.at? names = some file)) :
    walk.selection tree = walk.selection other :=
  (walk.isSelection_selection h).unique hsame (walk.isSelection_selection hother)

/-! ## The walk comes across the selection -/

section

variable (walk : Walk)

/-- Whether what is in a directory is looked at. -/
def IsOpen (names : List Name) : Prop :=
  names.length ≤ walk.maxDepth ∧
  (names ≠ [] → walk.nonRecursive = false ∧ walk.Enters names)

/-- Whether a file is counted, seen from a directory on the way to it. -/
def Reaches (above names : List Name) : Prop :=
  (∀ depth < names.length, walk.IsOpen (above ++ names.take depth)) ∧ walk.Takes (above ++ names)

instance (names : List Name) : Decidable (walk.IsOpen names) :=
  inferInstanceAs (Decidable (_ ∧ _))

instance (above names : List Name) : Decidable (walk.Reaches above names) :=
  inferInstanceAs (Decidable (_ ∧ _))

theorem reaches_nil (above : List Name) : walk.Reaches above [] ↔ walk.Takes above := by
  rw [Reaches, List.append_nil]
  exact and_iff_right fun depth hdepth => absurd hdepth (Nat.not_lt_zero depth)

theorem reaches_cons (above : List Name) (name : Name) (names : List Name) :
    walk.Reaches above (name :: names) ↔
      walk.IsOpen above ∧ walk.Reaches (above ++ [name]) names := by
  rw [Reaches, List.length_cons, Nat.forall_lt_succ_left, Reaches, and_assoc]
  simp only [List.take_zero, List.append_nil, List.take_succ_cons, List.append_assoc,
    List.singleton_append]

/-- Seen from the root, reaching a file is a matter of the conditions on its names. -/
theorem reaches_root_iff {names : List Name} (h : names ≠ []) :
    walk.Reaches [] names ↔ walk.Admits names := by
  have hpositive : 0 < names.length := List.length_pos_iff.mpr h
  have hlength : ∀ {depth : Nat}, depth < names.length → (names.take depth).length = depth :=
    fun hdepth => List.length_take_of_le (Nat.le_of_lt hdepth)
  constructor
  · rintro ⟨hopen, htakes⟩
    have hentered : ∀ depth < names.length, 0 < depth →
        walk.nonRecursive = false ∧ walk.Enters (names.take depth) := by
      intro depth hdepth hbelow
      apply (hopen depth hdepth).2
      rw [← List.length_pos_iff, List.nil_append, hlength hdepth]
      exact hbelow
    refine ⟨(hopen 0 hpositive).1, fun hdirect => ?_,
      fun depth hdepth hbelow => (hentered depth hdepth hbelow).2, htakes⟩
    apply Classical.byContradiction
    intro hdeep
    have hrecursive := (hentered 1 (by omega) Nat.one_pos).1
    rw [hdirect] at hrecursive
    cases hrecursive
  · rintro ⟨hroot, hdirect, hentered, htakes⟩
    refine ⟨fun depth hdepth => ?_, htakes⟩
    rw [List.nil_append]
    cases depth with
    -- of the root nothing is asked but that the depth is allowed
    | zero => exact ⟨hroot, fun hne => absurd rfl hne⟩
    | succ depth =>
        have henters := hentered (depth + 1) hdepth (Nat.succ_pos depth)
        refine ⟨henters.1, fun _ => ⟨?_, henters⟩⟩
        rw [← Bool.not_eq_true]
        intro hnonRecursive
        have hone := hdirect hnonRecursive
        omega

/-- A file below the root of a walk, and what is in it. -/
def located (file : List Name × FileTree) : Path × Contents :=
  (walk.root.below file.1, file.2.contents (walk.root.below file.1))

/-- The files that a walk is to come across in a directory, out of those below it. -/
def reached (above : List Name) (files : List (List Name × FileTree)) : List (Path × Contents) :=
  (files.filter fun file => walk.Reaches above file.1).map fun file =>
    walk.located (above ++ file.1, file.2)

theorem reached_below (above : List Name) (name : Name) (files : List (List Name × FileTree)) :
    walk.reached above (files.map (Prod.map (name :: ·) id)) =
      if walk.IsOpen above then walk.reached (above ++ [name]) files else [] := by
  rw [reached, List.filter_map, List.map_map]
  by_cases hopen : walk.IsOpen above
  · rw [if_pos hopen, reached]
    simp [Function.comp_def, reaches_cons, hopen]
  · rw [if_neg hopen]
    simp [Function.comp_def, reaches_cons, hopen]

theorem reached_directory (above : List Name) (entries : List (Name × FileTree)) :
    walk.reached above (FileTree.directory entries).files =
      if walk.IsOpen above then
        entries.flatMap fun entry => walk.reached (above ++ [entry.1]) entry.2.files
      else [] := by
  rw [FileTree.files_directory, reached, List.filter_flatMap, List.map_flatMap]
  have hentry : ∀ entry : Name × FileTree,
      walk.reached above (entry.2.files.map (Prod.map (entry.1 :: ·) id)) =
        if walk.IsOpen above then walk.reached (above ++ [entry.1]) entry.2.files else [] :=
    fun entry => walk.reached_below above entry.1 entry.2.files
  simp only [reached] at hentry ⊢
  by_cases hopen : walk.IsOpen above <;> simp [hentry, hopen]

theorem ignores_below {names : List Name} (h : names ≠ []) (isDirectory : Bool) :
    walk.ignores (walk.root.below names) isDirectory =
      ((isDirectory && excludedDirectories.contains (Path.ofNames names).name) ||
        IgnoreRule.ignores walk.rules (Path.ofNames names).toString.toList isDirectory) := by
  rw [ignores, wayTo, Path.relativeTo?_below, Path.name_below _ h]

/-- A file is taken if it is a candidate that is not ignored. -/
theorem candidates_eq_ite_takes {names : List Name} (h : names ≠ []) (tree : FileTree) :
    (if walk.ignores (walk.root.below names) false then []
      else walk.candidates (walk.root.below names) tree) =
      if walk.Takes names then
        [.candidate (walk.root.below names) (tree.contents (walk.root.below names))]
      else [] := by
  have hspec : walk.filespec.all (·.isMatch walk.root (walk.root.below names)) =
      walk.filespec.all fun spec => spec.glob.isMatch (Path.ofNames names).name.toList ||
        spec.glob.isMatch (Path.ofNames names).toString.toList := by
    simp only [Filespec.isMatch, Path.relativeTo?_below, Path.name_below _ h, Option.any_some]
  have hignored : walk.ignores (walk.root.below names) false =
      IgnoreRule.ignores walk.rules (Path.ofNames names).toString.toList false := by
    rw [ignores_below _ h, Bool.false_and, Bool.false_or]
  rw [hignored, candidates, hspec]
  by_cases htakes : walk.Takes names
  · rw [if_pos htakes, htakes.1, if_pos htakes.2]
    rfl
  · rw [if_neg htakes]
    by_cases hrules : IgnoreRule.ignores walk.rules (Path.ofNames names).toString.toList false
    · rw [if_pos hrules]
    · rw [if_neg hrules, if_neg]
      intro hmatch
      exact htakes ⟨Bool.eq_false_iff.mpr hrules, hmatch⟩

/-- The file that is taken is the one that is reached. -/
theorem candidates_file {names : List Name} (h : names ≠ []) {tree : FileTree}
    (hregular : tree.isRegular = true) :
    Finding.candidates
        (if walk.ignores (walk.root.below names) false then []
          else walk.candidates (walk.root.below names) tree) =
      walk.reached names tree.files := by
  have hfiles : tree.files = [([], tree)] := by
    rw [FileTree.files_of_ne_directory, if_pos hregular]
    rintro entries rfl
    cases hregular
  rw [candidates_eq_ite_takes walk h, hfiles, reached]
  by_cases htakes : walk.Takes names
  · simp [reaches_nil, htakes, Finding.candidates, Finding.candidate?, located]
  · simp [reaches_nil, htakes, Finding.candidates]

end

section

variable {walk : Walk} (hfaults : walk.faultsEnabled = false)

include hfaults

theorem barrier?_eq (path : Path) (depth : Nat) :
    walk.barrier? path depth =
      if walk.maxDepth < depth then some [depthWarning walk.maxDepth path]
      else if 0 < depth ∧ (walk.nonRecursive ∨ walk.ignores path true) then some []
      else none := by
  rw [barrier?, hfaults]
  simp

theorem listingError?_directory (path : Path) (entries : List (Name × FileTree)) :
    walk.listingError? path (.directory entries) = none := by
  rw [listingError?, if_neg]
  simp [hfaults]

theorem hasTypeFault_eq_false (name : Name) : walk.hasTypeFault name = false := by
  rw [hasTypeFault, hfaults, Bool.false_and]

/-- Nothing stands in place of what is in an open directory. -/
theorem barrier?_of_isOpen {names : List Name} (h : walk.IsOpen names) :
    walk.barrier? (walk.root.below names) names.length = none := by
  rw [barrier?_eq hfaults, if_neg (Int.not_lt.mpr h.1), if_neg]
  rintro ⟨hbelow, hclosed⟩
  have hne : names ≠ [] := List.length_pos_iff.mp hbelow
  obtain ⟨hrecursive, _, hexcluded, hrules⟩ := h.2 hne
  rw [ignores_below walk hne, hrecursive, hrules] at hclosed
  simp [hexcluded] at hclosed

theorem exists_barrier?_of_not_isOpen {names : List Name} (h : ¬ walk.IsOpen names) :
    ∃ found, walk.barrier? (walk.root.below names) names.length = some found := by
  rw [barrier?_eq hfaults]
  by_cases hdeep : walk.maxDepth < names.length
  · rw [if_pos hdeep]
    exact ⟨_, rfl⟩
  · rw [if_neg hdeep, if_pos]
    · exact ⟨_, rfl⟩
    · apply Classical.byContradiction
      intro hnone
      refine h ⟨Int.not_lt.mp hdeep, fun hne => ?_⟩
      have hbelow : 0 < names.length := List.length_pos_iff.mpr hne
      rw [ignores_below walk hne] at hnone
      simp only [hbelow, true_and, not_or, Bool.not_eq_true, Bool.or_eq_false_iff,
        Bool.and_eq_false_iff, reduceCtorEq, false_or] at hnone
      refine ⟨hnone.1, Int.not_lt.mp hdeep, ?_, hnone.2.2⟩
      simpa using hnone.2.1

/-- What is found in a directory is what is found at its entries, if it is open. -/
theorem candidates_findings_directory (above : List Name) {entries : List (Name × FileTree)}
    (h : ∀ entry ∈ entries,
      Finding.candidates (walk.entryFindings (walk.root.below above) above.length [entry]) =
        walk.reached (above ++ [entry.1]) entry.2.files) :
    Finding.candidates
        (walk.findings (walk.root.below above) above.length (.directory entries)) =
      walk.reached above (FileTree.directory entries).files := by
  rw [findings.eq_def, reached_directory]
  by_cases hopen : walk.IsOpen above
  · rw [if_pos hopen, barrier?_of_isOpen hfaults hopen]
    simp only [listingError?_directory hfaults]
    rw [entryFindings_eq_flatMap, Finding.candidates, List.filterMap_flatMap]
    exact List.flatMap_congr h
  · obtain ⟨found, hfound⟩ := exists_barrier?_of_not_isOpen hfaults hopen
    rw [if_neg hopen, hfound]
    exact walk.candidates_of_barrier? hfound

/-- Without simulated failures a walk comes across the files that it is to reach. -/
theorem candidates_entryFindings (above : List Name) (name : Name) (tree : FileTree) :
    Finding.candidates (walk.entryFindings (walk.root.below above) above.length [(name, tree)]) =
      walk.reached (above ++ [name]) tree.files := by
  have htype := hasTypeFault_eq_false hfaults
  induction tree using FileTree.inductionOn generalizing above name with
  | directory entries ih =>
      simp only [entryFindings, htype, Path.child_below, List.append_nil]
      by_cases hrecursive : walk.nonRecursive
      · have hclosed : ¬ walk.IsOpen (above ++ [name]) := by
          rintro ⟨_, hopen⟩
          rw [(hopen (List.concat_ne_nil _ _)).1] at hrecursive
          cases hrecursive
        rw [reached_directory, if_neg hclosed]
        simp [hrecursive, Finding.candidates]
      · have hfound := candidates_findings_directory hfaults (above ++ [name])
          fun entry hmem => ih entry hmem (above ++ [name]) entry.1
        rw [List.length_append, List.length_singleton] at hfound
        simpa [hrecursive] using hfound
  | leaf tree hleaf =>
      simp only [entryFindings, htype, Path.child_below, List.append_nil]
      cases tree with
      | directory entries => exact absurd rfl (hleaf entries)
      | file _ | lockedFile => exact walk.candidates_file (List.concat_ne_nil _ _) rfl
      | lockedDirectory =>
          by_cases hrecursive : walk.nonRecursive
          · simp [hrecursive, Finding.candidates, FileTree.files, FileTree.isRegular, reached]
          · rw [if_neg hrecursive]
            exact walk.candidates_findings_of_neither _ _ (fun _ h => FileTree.noConfusion h) rfl
      | link _ | special => rfl

/-- What a walk comes across below its root is the selection from the tree. -/
theorem candidates_findings (entries : List (Name × FileTree)) :
    Finding.candidates (walk.findings walk.root 0 (FileTree.directory entries).sorted) =
      (walk.selection (.directory entries)).map walk.located := by
  have hentries : ∀ entry ∈ FileTree.sortedEntries entries,
      Finding.candidates (walk.entryFindings (walk.root.below []) 0 [entry]) =
        walk.reached ([] ++ [entry.1]) entry.2.files :=
    fun entry _ => candidates_entryFindings hfaults [] entry.1 entry.2
  have hfound := candidates_findings_directory hfaults [] hentries
  rw [Path.below_nil, ← FileTree.sorted_directory] at hfound
  refine hfound.trans (congrArg (List.map _) (List.filter_congr fun file hmem => ?_))
  rw [FileTree.sorted_directory] at hmem
  exact decide_eq_decide.mpr (walk.reaches_root_iff (FileTree.ne_nil_of_mem_files hmem))

end

end Walk

/-! ## The scan counts the selection -/

/-- The rules that are listed in a directory, where they are heeded. -/
def heededRules (world : FileTree) (options : ScanOptions) (root : Path) :
    Except SystemError (List IgnoreRule) :=
  if options.useGitignore then listedRules world root else .ok []

theorem exists_heededRules {world : FileTree} {options : ScanOptions} {root : Path}
    (h : options.useGitignore = true → world.denotes (root.child ignoreListName) = true →
      ∃ bytes, world.read (root.child ignoreListName) = .ok bytes) :
    ∃ listed, heededRules world options root = .ok listed := by
  by_cases hheeded : options.useGitignore
  · rw [heededRules, if_pos hheeded, listedRules]
    by_cases hthere : world.denotes (root.child ignoreListName)
    · obtain ⟨bytes, hbytes⟩ := h hheeded hthere
      rw [if_pos hthere, hbytes]
      exact ⟨_, rfl⟩
    · rw [if_neg hthere]
      exact ⟨_, rfl⟩
  · rw [heededRules, if_neg hheeded]
    exact ⟨_, rfl⟩

/-- The directory below which the paths of a scan are compared with patterns: the one that is
scanned, or the one that holds the file that is. -/
def scanRoot (world : FileTree) (path : Path) : Path :=
  if world.isDirectory path then world.realPath path else (world.realPath path).parent

theorem scanRoot_of_directory {world : FileTree} {path : Path} {entries : List (Name × FileTree)}
    (hpath : world.node path = .ok (.directory entries)) :
    scanRoot world path = world.realPath path := by
  rw [scanRoot, FileTree.isDirectory, hpath]
  rfl

/-- The pattern for files, if it makes no sense. -/
def ScanOptions.badFilespec? (options : ScanOptions) : Option String :=
  options.filespec.filter fun pattern => (Filespec.parse? pattern).isNone

/-- What a walk goes by in a directory where some rules are listed. -/
def ScanOptions.walk (options : ScanOptions) (root : Path) (listed : List IgnoreRule)
    (faultsEnabled : Bool) : Walk :=
  ⟨root, IgnoreRule.all listed options.ignore, options.filespec.bind Filespec.parse?,
    options.maxDepth, options.nonRecursive, faultsEnabled⟩

/-- What a scan has come to that counts some of the files below its root, in their order and as
far as there is room. -/
structure ScanOutcome.Counts (outcome : ScanOutcome) (walk : Walk) (room : Nat)
    (chosen : List (List Name × FileTree)) : Prop where
  error_eq : outcome.error = if room < chosen.length then some .tooManyEntries else none
  tallies : outcome.state.Tallies walk.root ((chosen.take room).map walk.located)

namespace Scan

theorem counts_run {scan : Scan} (hfaults : scan.walk.faultsEnabled = false)
    (hroot : scan.target = scan.walk.root) {entries : List (Name × FileTree)}
    (htree : scan.tree = (FileTree.directory entries).sorted) :
    scan.run.Counts scan.walk scan.maxEntries.toNat
      (scan.walk.selection (.directory entries)) := by
  have hfound : Finding.candidates scan.findings =
      (scan.walk.selection (.directory entries)).map scan.walk.located := by
    rw [findings, hroot, htree]
    exact Walk.candidates_findings hfaults entries
  obtain ⟨herror, htallies, _⟩ := scan.run_tallies
  rw [hfound, List.length_map] at herror
  rw [hfound, ← List.map_take] at htallies
  exact ⟨herror, htallies⟩

/-- There is something to be scanned where a path denotes something. -/
theorem subject_eq_ok_iff {world : FileTree} {path : Path} {tree : FileTree} :
    subject world path = .ok tree ↔ world.node path = .ok tree := by
  rw [← FileTree.look_eq_some_iff, subject]
  rcases world.look path with failure | _ | found
  · exact iff_of_false nofun nofun
  · exact iff_of_false nofun nofun
  · simp only [Except.ok.injEq, Option.some.injEq]

/-- A scan of something that is there begins, unless its pattern makes no sense or its rules cannot
be read. -/
theorem prepare_eq {world : FileTree} {path : Path} {tree : FileTree}
    (hpath : world.node path = .ok tree) (faultsEnabled : Bool) (options : ScanOptions) :
    prepare world faultsEnabled options path =
      match options.badFilespec?, heededRules world options (scanRoot world path) with
      | some pattern, _ => .error (.badFilespec pattern)
      | none, .error failure => .error (.unreadableIgnoreList failure)
      | none, .ok listed =>
        .ok ⟨world.realPath path, tree.sorted,
          options.walk (scanRoot world path) listed faultsEnabled, options.maxEntries⟩ := by
  have hbegin : prepare world faultsEnabled options path =
      match options.badFilespec? with
      | some pattern => .error (.badFilespec pattern)
      | none => do
        let listed ← (heededRules world options (scanRoot world path)).mapError
          ScanError.unreadableIgnoreList
        return ⟨world.realPath path, tree.sorted,
          options.walk (scanRoot world path) listed faultsEnabled, options.maxEntries⟩ := by
    rw [prepare, subject_eq_ok_iff.mpr hpath, scanRoot, FileTree.isDirectory, hpath,
      ScanOptions.badFilespec?]
    simp only [ScanOptions.walk, heededRules]
    cases options.filespec with
    | none => cases tree <;> cases options.useGitignore <;> rfl
    | some pattern =>
        rw [Option.filter_some]
        simp only [Option.bind_some]
        cases Filespec.parse? pattern with
        | none => rfl
        | some filespec => cases tree <;> cases options.useGitignore <;> rfl
  rw [hbegin]
  cases options.badFilespec? with
  | some pattern => rfl
  | none => cases heededRules world options (scanRoot world path) <;> rfl

/-- A scan that can begin is one of something that is there, with a pattern that makes sense and
rules that can be read. -/
theorem exists_of_prepare {world : FileTree} {path : Path} {options : ScanOptions}
    {faultsEnabled : Bool} {scan : Scan} (h : prepare world faultsEnabled options path = .ok scan) :
    ∃ tree listed, world.node path = .ok tree ∧ options.badFilespec? = none ∧
      heededRules world options (scanRoot world path) = .ok listed ∧
      scan = ⟨world.realPath path, tree.sorted,
        options.walk (scanRoot world path) listed faultsEnabled, options.maxEntries⟩ := by
  cases hsubject : subject world path with
  | error error =>
      rw [prepare, hsubject] at h
      cases h
  | ok tree =>
      have hpath := subject_eq_ok_iff.mp hsubject
      rw [prepare_eq hpath] at h
      cases hspec : options.badFilespec? with
      | some pattern =>
          rw [hspec] at h
          cases h
      | none =>
          cases hlisted : heededRules world options (scanRoot world path) with
          | error failure =>
              rw [hspec, hlisted] at h
              cases h
          | ok listed =>
              rw [hspec, hlisted] at h
              cases h
              exact ⟨tree, listed, hpath, rfl, rfl, rfl⟩

theorem badFilespec?_eq_none {options : ScanOptions}
    (h : ∀ pattern ∈ options.filespec, (Filespec.parse? pattern).isSome = true) :
    options.badFilespec? = none := by
  rw [ScanOptions.badFilespec?, Option.filter_eq_none_iff]
  intro pattern hpattern
  rw [Option.isNone_iff_eq_none, ← Ne, ← Option.isSome_iff_ne_none]
  exact h pattern hpattern

/-- A scan of a directory can begin if its pattern makes sense and its rules can be read. -/
theorem prepare_directory {world : FileTree} {options : ScanOptions} {path : Path}
    {entries : List (Name × FileTree)} {listed : List IgnoreRule}
    (hpath : world.node path = .ok (.directory entries))
    (hspec : ∀ pattern ∈ options.filespec, (Filespec.parse? pattern).isSome = true)
    (hlisted : heededRules world options (world.realPath path) = .ok listed)
    (faultsEnabled : Bool) :
    prepare world faultsEnabled options path =
      .ok ⟨world.realPath path, (FileTree.directory entries).sorted,
        options.walk (world.realPath path) listed faultsEnabled, options.maxEntries⟩ := by
  rw [prepare_eq hpath, scanRoot_of_directory hpath, badFilespec?_eq_none hspec, hlisted]

end Scan

/-- **A scan counts the selected files, and only that there are too many of them can end it.**
Without simulated failures a scan of a directory counts the files that satisfy conditions on their
own names and those of the directories above them, in the order of their paths. Its list of ignore
patterns need only be readable if it is heeded and there is one. -/
theorem scanTree_counts_selection {world : FileTree} {options : ScanOptions} {path : Path}
    {entries : List (Name × FileTree)} (hpath : world.node path = .ok (.directory entries))
    (hspec : ∀ pattern ∈ options.filespec, (Filespec.parse? pattern).isSome = true)
    (hlist : options.useGitignore = true →
      world.denotes ((world.realPath path).child ignoreListName) = true →
      ∃ bytes, world.read ((world.realPath path).child ignoreListName) = .ok bytes) :
    ∃ listed, heededRules world options (world.realPath path) = .ok listed ∧
      let walk := options.walk (world.realPath path) listed false
      let chosen := walk.selection (.directory entries)
      (scanTree world false options path).Counts walk options.maxEntries.toNat chosen ∧
      ((FileTree.directory entries).ListsNamesOnce →
        ∀ files, walk.IsSelection (.directory entries) files ↔ files = chosen) := by
  obtain ⟨listed, hlisted⟩ := exists_heededRules hlist
  refine ⟨listed, hlisted, ?_, fun honce files => ?_⟩
  · rw [scanTree, Scan.prepare_directory hpath hspec hlisted]
    exact Scan.counts_run rfl rfl rfl
  · have hchosen := Walk.isSelection_selection
      (options.walk (world.realPath path) listed false) honce
    constructor
    · intro hfiles
      exact hfiles.unique (fun _ _ _ => Iff.rfl) hchosen
    · rintro rfl
      exact hchosen

/-- A scan of a directory that lists its files against their order, with room for one of them. -/
theorem scanTree_counts_selection_of_room_for_one :
    let entries : List (Name × FileTree) :=
      [(⟨"b.py", by decide⟩, .file "b = 1\n".toUTF8), (⟨"a.py", by decide⟩, .lockedFile),
        (⟨"build", by decide⟩, .directory [(⟨"c.py", by decide⟩, .lockedFile)])]
    let world : FileTree := .directory [(⟨"home", by decide⟩, .directory entries)]
    let path : Path := ⟨.slash, [⟨"home", by decide⟩]⟩
    let options : ScanOptions := { filespec := some "*.py", maxEntries := 1, useGitignore := true }
    world.node path = .ok (.directory entries) ∧
    world.denotes ((world.realPath path).child ignoreListName) = false ∧
    (FileTree.directory entries).ListsNamesOnce ∧
    ∃ walk : Walk, (scanTree world false options path).Counts walk 1
        (walk.selection (.directory entries)) ∧
      walk.IsSelection (.directory entries) (walk.selection (.directory entries)) := by
  intro entries world path options
  have hpath : world.node path = .ok (.directory entries) := by
    simp [world, path, FileTree.node, FileTree.locate, FileTree.follow, FileTree.at?,
      FileTree.lookUp?, Name.up]
  have habsent : world.denotes ((world.realPath path).child ignoreListName) = false := by
    simp [world, path, entries, FileTree.denotes, FileTree.node, FileTree.realPath,
      FileTree.locate, FileTree.follow, FileTree.at?, FileTree.lookUp?, Name.up, Path.child,
      ignoreListName]
  have honce : (FileTree.directory entries).ListsNamesOnce := by
    have hleaf : ∀ tree ∈ [.file "b = 1\n".toUTF8, FileTree.lockedFile], tree.ListsNamesOnce := by
      intro tree hmem
      apply FileTree.listsNamesOnce_of_ne_directory
      rintro found rfl
      simp at hmem
    have hbelow : (FileTree.directory [(⟨"c.py", by decide⟩, .lockedFile)]).ListsNamesOnce :=
      FileTree.listsNamesOnce_directory (by decide) (by simpa using hleaf .lockedFile (by simp))
    exact FileTree.listsNamesOnce_directory (by decide) (by simpa [entries, hbelow] using hleaf)
  have hspec : ∀ pattern ∈ options.filespec, (Filespec.parse? pattern).isSome = true := by
    rintro _ ⟨⟩
    rfl
  obtain ⟨listed, _, hcounts, hselection⟩ := scanTree_counts_selection hpath hspec
    fun _ hthere => absurd (habsent.symm.trans hthere) Bool.false_ne_true
  exact ⟨hpath, habsent, honce, _, hcounts, (hselection honce _).mpr rfl⟩

end LineCensus
