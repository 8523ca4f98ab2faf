/-
# The price of an unreadable file

A file that passes the filters takes up room before it is opened. If it cannot be opened,
that is logged and counted, and nothing else has happened. So a scan that comes to an end
comes to the same without the file, but for one problem and one entry. Room is all that
the files behind it can miss, and a scan that had room for them with the file has room
without it.

Without the file the way to the root is what it was. The list of ignore patterns may be a
link to the file or one that leads past it. In the first case it cannot be read either, and
no scan begins; in the second there was no list to begin with.
-/

import LineCensus.Proofs.Census.Deletion
import LineCensus.Proofs.Count.Confirmation
import LineCensus.Proofs.FileTree.Loss

namespace LineCensus

open Text

/-! ## A file that is come across -/

/-- A walk finds a file that it takes, at its entry. -/
theorem Walk.entryFindingsBelow_of_takes {walk : Walk} (hfaults : walk.faultsEnabled = false)
    {above : List Name} {name : Name} (h : walk.Takes (above ++ [name])) {file : FileTree}
    (hfile : file.isRegular = true) :
    walk.entryFindingsBelow above name file =
      [.candidate (walk.root.below (above ++ [name]))
        (file.contents (walk.root.below (above ++ [name])))] := by
  have hfound := walk.candidates_eq_ite_takes (List.concat_ne_nil name above) file
  rw [if_pos h] at hfound
  rw [← hfound, entryFindingsBelow, ← Path.child_below]
  cases file with
  | file _ | lockedFile =>
      simp only [FileTree.sorted, entryFindings, hasTypeFault_eq_false hfaults name,
        List.append_nil]
      rfl
  | _ => cases hfile

/-- A name without the extension of command procedures says what language a file is in. -/
theorem languageOf?_of_extension?_ne {path : Path}
    (h : Name.extension? (lower path.name.toList) ≠ some Language.confirmedExtension)
    (contents : Contents) : languageOf? path contents = Language.ofFileName? path.name :=
  Language.ofFile?_of_extension?_ne h _

/-! ## Scans with and without a file that only takes up room -/

namespace ScanState

variable {maxEntries : Int} {root : Path} {state next : ScanState}

theorem enter_recordFile (state : ScanState) (count : FileCount) :
    state.enter.recordFile count = (state.recordFile count).enter := by
  simp only [recordFile]
  split <;> rfl

/-- A scan that can take a step can take the same step with more room. -/
theorem exists_step_of_enter {finding : Finding}
    (h : state.enter.step maxEntries root finding = .ok next) :
    ∃ before, state.step maxEntries root finding = .ok before ∧ next = before.enter := by
  cases finding with
  | problem record =>
      cases h
      exact ⟨_, rfl, rfl⟩
  | candidate path contents =>
      simp only [step, countCandidate] at h ⊢
      by_cases hfull : maxEntries < ((state.enter.entries + 1 : Nat) : Int)
      · rw [if_pos hfull] at h
        cases h
      · have hroom : ¬ maxEntries < ((state.entries + 1 : Nat) : Int) := by
          simp only [enter] at hfull
          omega
        rw [if_neg hfull] at h
        rw [if_neg hroom]
        rcases countFile_cases (some root) none path contents with
          hnone | ⟨failure, herror⟩ | ⟨count, _, _, hsome, _, _⟩
        · rw [hnone] at h ⊢
          cases h
          exact ⟨_, rfl, rfl⟩
        · rw [herror] at h ⊢
          cases h
          exact ⟨_, rfl, rfl⟩
        · rw [hsome] at h ⊢
          cases h
          exact ⟨_, rfl, enter_recordFile state.enter count⟩

/-- All that happens at a file that cannot be read. -/
theorem eq_of_step_unreadable {path : Path} {contents : Contents} {failure : SystemError}
    (hcount : countFile (some root) none path contents = .error (.unreadable failure))
    (h : state.step maxEntries root (.candidate path contents) = .ok next) :
    next = state.enter.logProblem
      ⟨.error, "Error counting lines in " ++ path.toString ++ ": " ++ failure.message⟩ := by
  simp only [step, countCandidate, hcount] at h
  split at h
  · cases h
  · cases h
    rfl

end ScanState

namespace ScanOutcome

variable (maxEntries : Int) (root : Path)

/-- A run that comes to an end with an entry more does so without it. -/
theorem ofFindings_of_enter {state : ScanState} (findings : List Finding)
    (h : (ofFindings maxEntries root state.enter findings).error = none) :
    (ofFindings maxEntries root state findings).error = none ∧
      (ofFindings maxEntries root state.enter findings).state =
        (ofFindings maxEntries root state findings).state.enter := by
  induction findings generalizing state with
  | nil => exact ⟨rfl, rfl⟩
  | cons finding rest ih =>
      cases hstep : state.enter.step maxEntries root finding with
      | error error =>
          rw [ofFindings, hstep] at h
          cases h
      | ok next =>
          obtain ⟨before, hbefore, rfl⟩ := ScanState.exists_step_of_enter hstep
          simp only [ofFindings, hstep, hbefore] at h ⊢
          exact ih h

/-- A run that comes to an end with an unreadable file among the findings does so without it, and
has then met one entry less and logged one problem less. -/
theorem ofFindings_insert_unreadable {path : Path} {contents : Contents} {failure : SystemError}
    (hcount : countFile (some root) none path contents = .error (.unreadable failure))
    {state : ScanState} (before after : List Finding)
    (h : (ofFindings maxEntries root state
      (before ++ .candidate path contents :: after)).error = none) :
    let smaller := ofFindings maxEntries root state (before ++ after)
    smaller.error = none ∧
      ScanState.AlsoLogged
        ⟨.error, "Error counting lines in " ++ path.toString ++ ": " ++ failure.message⟩
        smaller.state.enter
        (ofFindings maxEntries root state (before ++ .candidate path contents :: after)).state := by
  induction before generalizing state with
  | nil =>
      cases hstep : state.step maxEntries root (.candidate path contents) with
      | error error =>
          rw [List.nil_append, ofFindings, hstep] at h
          cases h
      | ok next =>
          cases ScanState.eq_of_step_unreadable hcount hstep
          simp only [List.nil_append, ofFindings, hstep] at h ⊢
          obtain ⟨herror, hlogged⟩ := ofFindings_of_alsoLogged maxEntries root
            (state.enter.alsoLogged_logProblem _) after
          obtain ⟨hsmaller, hstate⟩ := ofFindings_of_enter maxEntries root after (herror ▸ h)
          exact ⟨hsmaller, hstate ▸ hlogged⟩
  | cons finding rest ih =>
      cases hstep : state.step maxEntries root finding with
      | error error =>
          rw [List.cons_append, ofFindings, hstep] at h
          cases h
      | ok next =>
          simp only [List.cons_append, ofFindings, hstep] at h ⊢
          exact ih h

end ScanOutcome

/-! ## Scans with and without an unreadable file -/

/-- Rules that are read in spite of an unreadable file are read the same without it. -/
theorem heededRules_remove_lockedFile {world : FileTree} {gone : List Name} {options : ScanOptions}
    {root : Path} {listed : List IgnoreRule} (hat : world.at? gone = some .lockedFile)
    (hne : gone ≠ []) (h : heededRules world options root = .ok listed) :
    heededRules (world.remove gone) options root = .ok listed := by
  by_cases hheeded : options.useGitignore = true
  case neg => rwa [heededRules, if_neg hheeded] at h ⊢
  case pos =>
    rw [heededRules, if_pos hheeded, listedRules] at h ⊢
    have hreads : ∀ failure, world.denotes (root.child ignoreListName) = true →
        world.read (root.child ignoreListName) ≠ .error failure := by
      intro failure hthere hfails
      rw [if_pos hthere, hfails] at h
      cases h
    rcases FileTree.node_remove_file hat rfl hne (root.child ignoreListName) with
      (hsame | ⟨_, _, hmore, _⟩) | ⟨hfile | habsent, hnone⟩
    · rwa [FileTree.denotes, FileTree.read, hsame]
    · exact absurd (by rw [FileTree.read, hmore]; rfl)
        (hreads (.isDirectory _) (by rw [FileTree.denotes, hmore]))
    · exact absurd (by rw [FileTree.read, hfile]; rfl)
        (hreads (.permissionDenied _) (by rw [FileTree.denotes, hfile]))
    · rw [if_neg (Bool.eq_false_iff.mp habsent)] at h
      rwa [if_neg (Bool.eq_false_iff.mp hnone)]

/-- A scan that comes to an end comes to the same without an unreadable file, but for one problem
and one entry. -/
theorem Scan.run_remove_unreadable {walk : Walk} (hfaults : walk.faultsEnabled = false)
    (maxEntries : Int) {tree : FileTree} {names : List Name} (honce : tree.ListsNamesOnce)
    (hne : names ≠ []) (hat : tree.at? names = some .lockedFile) (hadmits : walk.Admits names)
    {failure : SystemError}
    (hcount : countFile (some walk.root) none (walk.root.below names)
      (.error (.permissionDenied (walk.root.below names))) = .error (.unreadable failure)) :
    let outcome := (Scan.mk walk.root tree.sorted walk maxEntries).run
    let smaller := (Scan.mk walk.root (tree.remove names).sorted walk maxEntries).run
    outcome.error = none →
      smaller.error = none ∧
      ScanState.AlsoLogged
        ⟨.error, "Error counting lines in " ++ (walk.root.below names).toString ++ ": " ++
          failure.message⟩
        smaller.state.enter outcome.state := by
  have hreaches : walk.ComesTo [] names ∧ walk.Takes names :=
    (walk.reaches_root_iff hne).mpr hadmits
  obtain ⟨directory, name, rfl⟩ := (List.eq_nil_or_concat names).resolve_left hne
  rw [List.concat_eq_append] at hat hreaches hcount ⊢
  obtain ⟨before, after, hmore, hless⟩ :=
    Walk.findingsBelow_remove_entry hfaults honce [] hat
  rw [if_pos hreaches.1, List.nil_append,
    Walk.entryFindingsBelow_of_takes hfaults hreaches.2 rfl, Walk.findingsBelow, Path.below_nil,
    List.append_assoc] at hmore
  rw [Walk.findingsBelow, Path.below_nil] at hless
  intro outcome smaller hended
  have houtcome : outcome = .ofFindings maxEntries walk.root (.start walk.root)
      (before ++ .candidate (walk.root.below (directory ++ [name]))
        (.error (.permissionDenied (walk.root.below (directory ++ [name])))) :: after) :=
    congrArg (ScanOutcome.ofFindings maxEntries walk.root (.start walk.root)) hmore
  have hsmaller : smaller = .ofFindings maxEntries walk.root (.start walk.root)
      (before ++ after) :=
    congrArg (ScanOutcome.ofFindings maxEntries walk.root (.start walk.root)) hless
  rw [houtcome] at hended ⊢
  rw [hsmaller]
  exact ScanOutcome.ofFindings_insert_unreadable maxEntries walk.root hcount before after hended

/-- A scan that begins in spite of an unreadable file begins the same without it. -/
theorem Scan.prepare_removeBelow_lockedFile {world : FileTree} {options : ScanOptions}
    {path : Path} {entries : List (Name × FileTree)} {names : List Name}
    (hpath : world.node path = .ok (.directory entries)) (hne : names ≠ [])
    (hat : (FileTree.directory entries).at? names = some .lockedFile) {scan : Scan}
    (h : prepare world false options path = .ok scan) :
    let walk := options.heededWalk world (world.realPath path)
    scan = ⟨walk.root, (FileTree.directory entries).sorted, walk, options.maxEntries⟩ ∧
    prepare (world.removeBelow path names) false options path =
      .ok ⟨walk.root, ((FileTree.directory entries).remove names).sorted, walk,
        options.maxEntries⟩ := by
  obtain ⟨hreal, hsmaller⟩ := FileTree.node_removeBelow_file hpath hne hat rfl
  obtain ⟨tree, listed, htree, hspec, hlisted, rfl⟩ := exists_of_prepare h
  cases hpath.symm.trans htree
  rw [scanRoot_of_directory hpath] at hlisted ⊢
  have hrules : heededRules (world.removeBelow path names) options (world.realPath path) =
      .ok listed :=
    heededRules_remove_lockedFile ((FileTree.at?_namesBelow hpath).trans hat)
      (List.append_ne_nil_of_right_ne_nil _ hne) hlisted
  rw [heededWalk_eq hlisted, prepare_eq hsmaller,
    scanRoot_of_isFolder hsmaller (FileTree.isFolder_remove _ hne), hspec, hreal, hrules]
  exact ⟨rfl, rfl⟩

/-- **An unreadable file costs a scan nothing but itself.** Let there be, in a directory that is
scanned, a file in a known language that passes the filters and cannot be opened. If the scan comes
to an end, so does a scan without the file, and it comes to the same, progress and all. But one
error less is counted, the one record about the file is missing from the log, and there is room for
one file more. -/
theorem scanTree_removeBelow_unreadable {world : FileTree} (options : ScanOptions) {path : Path}
    {entries : List (Name × FileTree)} {names : List Name}
    (hpath : world.node path = .ok (.directory entries))
    (honce : (FileTree.directory entries).ListsNamesOnce)
    (hat : (FileTree.directory entries).at? names = some .lockedFile)
    (hname : (Language.ofFileName? ((world.realPath path).below names).name).isSome = true)
    (hextension : Name.extension? (lower ((world.realPath path).below names).name.toList) ≠
      some Language.confirmedExtension)
    (hadmits : (options.heededWalk world (world.realPath path)).Admits names)
    (hended : (scanTree world false options path).error = none) :
    let file := (world.realPath path).below names
    let record : LogRecord := ⟨.error, "Error counting lines in " ++ file.toString ++ ": " ++
      (SystemError.permissionDenied file).message⟩
    let outcome := scanTree world false options path
    let smaller := scanTree (world.removeBelow path names) false options path
    smaller.error = none ∧ ScanState.AlsoLogged record smaller.state.enter outcome.state := by
  have hne : names ≠ [] := by
    rintro rfl
    cases hat
  obtain ⟨language, hlanguage⟩ := Option.isSome_iff_exists.mp hname
  intro file record outcome smaller
  have hcount : countFile (some (world.realPath path)) none file
      (.error (.permissionDenied file)) = .error (.unreadable (.permissionDenied file)) :=
    countFile_of_unreadable ((languageOf?_of_extension?_ne hextension _).trans hlanguage) _ _
  cases hprepare : Scan.prepare world false options path with
  | error error =>
      rw [scanTree, hprepare] at hended
      cases hended
  | ok scan =>
      obtain ⟨rfl, hsmaller⟩ := Scan.prepare_removeBelow_lockedFile hpath hne hat hprepare
      rw [scanTree, hprepare] at hended
      simp only [outcome, smaller, scanTree, hprepare, hsmaller]
      exact Scan.run_remove_unreadable rfl _ honce hne hat hadmits hcount hended

/-- A scan of a directory with a file that cannot be opened, where the list of ignore patterns is a
link to what would be below that file. -/
theorem scanTree_removeBelow_unreadable_of_nested_file :
    let below : List (Name × FileTree) := [(⟨"b.py", by decide⟩, .lockedFile)]
    let entries : List (Name × FileTree) :=
      [(⟨"src", by decide⟩, .directory below),
        (ignoreListName, .link ⟨.relative, [⟨"src", by decide⟩, ⟨"b.py", by decide⟩, .up]⟩),
        (⟨"a.py", by decide⟩, .file "x".toUTF8)]
    let world : FileTree := .directory [(⟨"home", by decide⟩, .directory entries)]
    let path : Path := ⟨.slash, [⟨"home", by decide⟩]⟩
    let names : List Name := [⟨"src", by decide⟩, ⟨"b.py", by decide⟩]
    let smaller : FileTree := world.removeBelow path names
    let outcome := scanTree world false { useGitignore := true } path
    let smallerOutcome := scanTree smaller false { useGitignore := true } path
    world.node path = .ok (.directory entries) ∧
    (path.below names).toString = "/home/src/b.py" ∧
    outcome.error = none ∧ smallerOutcome.error = none ∧
    ScanState.AlsoLogged
      ⟨.error, "Error counting lines in /home/src/b.py: " ++
        (SystemError.permissionDenied (path.below names)).message⟩
      smallerOutcome.state.enter outcome.state := by
  intro below entries world path names smaller outcome smallerOutcome
  have hpath : world.node path = .ok (.directory entries) := by
    simp [world, path, FileTree.node, FileTree.locate, FileTree.follow, FileTree.at?,
      FileTree.lookUp?, Name.up]
  have hroot : world.realPath path = path := by
    simp [world, path, FileTree.realPath, FileTree.locate, FileTree.follow, FileTree.at?,
      FileTree.lookUp?, Name.up]
  have habsent : world.denotes (path.child ignoreListName) = false := by
    simp [world, path, entries, below, FileTree.denotes, FileTree.node, FileTree.locate,
      FileTree.follow, FileTree.maxLinks, FileTree.at?, FileTree.lookUp?, Name.up, Path.child,
      ignoreListName]
  have honce : (FileTree.directory entries).ListsNamesOnce := by
    have hleaf : ∀ tree : FileTree, (∀ found, tree ≠ .directory found) → tree.ListsNamesOnce :=
      fun _ => FileTree.listsNamesOnce_of_ne_directory
    have hbelow : (FileTree.directory below).ListsNamesOnce :=
      FileTree.listsNamesOnce_directory (by decide) (by simp [below, hleaf])
    exact FileTree.listsNamesOnce_directory (by decide) (by simp [entries, hbelow, hleaf])
  have hat : (FileTree.directory entries).at? names = some .lockedFile := by
    simp [entries, below, names, FileTree.at?, FileTree.lookUp?]
  have hrules : heededRules world { useGitignore := true } path = .ok [] := by
    rw [heededRules, if_pos rfl, listedRules, habsent]
    rfl
  have hended : outcome.error = none := by
    have hprepare : Scan.prepare world false { useGitignore := true } path =
        .ok ⟨path, (FileTree.directory entries).sorted,
          ScanOptions.walk { useGitignore := true } path [] false, 1000000⟩ := by
      rw [Scan.prepare_eq hpath, scanRoot_of_directory hpath, hroot, hrules]
      rfl
    have hfew : ∀ walk : Walk, (walk.selection (.directory entries)).length ≤ 2 := by
      intro walk
      refine (List.length_filter_le _ _).trans_eq ?_
      rw [(FileTree.sorted_files_perm _).length_eq]
      rfl
    simp only [outcome, scanTree, hprepare]
    rw [(Scan.counts_run rfl rfl rfl).error_eq, if_neg]
    exact Nat.not_lt.mpr ((hfew _).trans (by decide))
  have hadmits : (ScanOptions.heededWalk { useGitignore := true } world
      (world.realPath path)).Admits names := by
    rw [hroot, heededWalk_eq hrules]
    decide +kernel
  have hname : (Language.ofFileName? ((world.realPath path).below names).name).isSome = true := by
    rw [hroot]
    decide +kernel
  have hextension : Name.extension? (lower ((world.realPath path).below names).name.toList) ≠
      some Language.confirmedExtension := by
    rw [hroot]
    decide +kernel
  obtain ⟨hsmaller, hlogged⟩ := scanTree_removeBelow_unreadable { useGitignore := true } hpath honce
    hat hname hextension hadmits hended
  rw [hroot] at hlogged
  exact ⟨hpath, by decide, hended, hsmaller, hlogged⟩

end LineCensus
