/-
# Deleting an ignored directory

A walk that comes to an ignored directory finds nothing there, so it finds the same after
the directory was deleted. There is one exception: a walk asks how deep a directory is
before it asks whether the directory is ignored. An ignored directory one level below the
maximum depth, in a directory that is looked into, is worth a warning like any other.

So two scans, before and after the deletion, come to the same findings, but for that one
warning. A warning is logged and counted and has no say in anything that follows.

A link may lead through the directory and back, and so may the way to the root or to the
list of ignore patterns. Then it is not beside the point what is in it, and nothing is said.
-/

import LineCensus.Proofs.Census.Selection
import LineCensus.Proofs.FileTree.Way

namespace LineCensus

/-! ## Findings with and without an ignored directory -/

namespace Walk

section

variable (walk : Walk)

/-- Whether a walk that is in one directory comes to what is below it: every directory on the way
is looked into. -/
def ComesTo (above names : List Name) : Prop :=
  ∀ depth < names.length, walk.IsOpen (above ++ names.take depth)

/-- Whether an ignored directory below the root is warned about: the walk comes to it, and it is
too deep. -/
def WarnsBelow (above names : List Name) : Prop :=
  walk.ComesTo above names ∧ walk.nonRecursive = false ∧ walk.maxDepth < (above ++ names).length

instance (above names : List Name) : Decidable (walk.ComesTo above names) :=
  inferInstanceAs (Decidable (∀ _ < _, _))

instance (above names : List Name) : Decidable (walk.WarnsBelow above names) :=
  inferInstanceAs (Decidable (_ ∧ _))

/-- What a walk finds at an ignored directory below the root. -/
def depthWarnings (above names : List Name) : List Finding :=
  if walk.WarnsBelow above names then
    [depthWarning walk.maxDepth (walk.root.below (above ++ names))]
  else []

theorem comesTo_cons (above : List Name) (name : Name) (names : List Name) :
    walk.ComesTo above (name :: names) ↔
      walk.IsOpen above ∧ walk.ComesTo (above ++ [name]) names := by
  rw [ComesTo, List.length_cons, Nat.forall_lt_succ_left, ComesTo]
  simp only [List.take_zero, List.append_nil, List.take_succ_cons, List.append_assoc,
    List.singleton_append]

/-- A walk comes to an entry if it does to its directory and looks into that. -/
theorem ComesTo.isOpen {walk : Walk} {above names : List Name} {name : Name}
    (h : walk.ComesTo above (names ++ [name])) : walk.IsOpen (above ++ names) := by
  have hdirectory := h names.length (by simp)
  rwa [List.take_left] at hdirectory

theorem comesTo_singleton {above : List Name} {name : Name} :
    walk.ComesTo above [name] ↔ walk.IsOpen above := by
  rw [comesTo_cons]
  exact and_iff_left fun depth hdepth => absurd hdepth (Nat.not_lt_zero depth)

theorem depthWarnings_of_not_comesTo {above names : List Name}
    (h : ¬ walk.ComesTo above names) : walk.depthWarnings above names = [] :=
  if_neg fun hwarns => h hwarns.1

theorem depthWarnings_of_nonRecursive (h : walk.nonRecursive = true) (above names : List Name) :
    walk.depthWarnings above names = [] :=
  if_neg fun hwarns => Bool.false_ne_true (hwarns.2.1.symm.trans h)

end

/-- What a walk finds at a path below its root, in a tree that it takes in order. -/
def findingsBelow (walk : Walk) (above : List Name) (tree : FileTree) : List Finding :=
  walk.findings (walk.root.below above) above.length tree.sorted

/-- What a walk finds at an entry of a directory below its root. -/
def entryFindingsBelow (walk : Walk) (above : List Name) (name : Name) (tree : FileTree) :
    List Finding :=
  walk.entryFindings (walk.root.below above) above.length [(name, tree.sorted)]

section

variable {walk : Walk} (hfaults : walk.faultsEnabled = false)

include hfaults

theorem findingsBelow_of_isOpen {above : List Name} (h : walk.IsOpen above)
    (entries : List (Name × FileTree)) :
    walk.findingsBelow above (.directory entries) =
      walk.entryFindings (walk.root.below above) above.length
        (FileTree.sortedEntries entries) := by
  rw [findingsBelow, FileTree.sorted_directory, findings.eq_def, barrier?_of_isOpen hfaults h]
  simp only [listingError?_directory hfaults]

/-- What is in a directory that is not open does not matter. -/
theorem findingsBelow_of_not_isOpen {above : List Name} (h : ¬ walk.IsOpen above) :
    ∃ found, ∀ tree, walk.findingsBelow above tree = found := by
  obtain ⟨found, hfound⟩ := exists_barrier?_of_not_isOpen hfaults h
  refine ⟨found, fun tree => ?_⟩
  rw [findingsBelow, findings.eq_def, hfound]

/-- What is found at one entry of an open directory stands between what is found at the others,
whatever it denotes. -/
theorem exists_findingsBelow_of_isOpen {above : List Name} (hopen : walk.IsOpen above)
    {entries : List (Name × FileTree)} (h : (entries.map (·.1)).Nodup) {name : Name}
    {child : FileTree} (hchild : FileTree.lookUp? entries name = some child) :
    ∃ before after,
      walk.findingsBelow above (.directory entries) =
        before ++ walk.entryFindingsBelow above name child ++ after ∧
      walk.findingsBelow above (.directory (FileTree.without entries name)) = before ++ after ∧
      ∀ changed, walk.findingsBelow above (.directory (FileTree.withEntry entries name changed)) =
        before ++ walk.entryFindingsBelow above name changed ++ after := by
  obtain ⟨before, after, hsorted, hwithout, hwith⟩ := FileTree.exists_sortedEntries h hchild
  refine ⟨walk.entryFindings (walk.root.below above) above.length before,
    walk.entryFindings (walk.root.below above) above.length after, ?_, ?_, fun changed => ?_⟩
  · rw [findingsBelow_of_isOpen hfaults hopen, hsorted, entryFindings_append_cons]
    rfl
  · rw [findingsBelow_of_isOpen hfaults hopen, hwithout, entryFindings_append]
  · rw [findingsBelow_of_isOpen hfaults hopen, hwith, entryFindings_append_cons]
    rfl

theorem entryFindingsBelow_of_isFolder {tree : FileTree} (h : tree.isFolder = true)
    (above : List Name) (name : Name) :
    walk.entryFindingsBelow above name tree =
      if walk.nonRecursive then [] else walk.findingsBelow (above ++ [name]) tree := by
  have htype := hasTypeFault_eq_false hfaults name
  rw [entryFindingsBelow, findingsBelow, List.length_append, List.length_singleton]
  rw [← FileTree.isFolder_sorted] at h
  cases hsorted : tree.sorted with
  | directory _ | lockedDirectory => simp [entryFindings, htype, Path.child_below]
  | _ =>
      rw [hsorted] at h
      cases h

/-- An ignored directory is passed over, unless it is too deep. -/
theorem findingsBelow_of_ignores {names : List Name} (hne : names ≠ [])
    (h : walk.ignores (walk.root.below names) true = true) (tree : FileTree) :
    walk.findingsBelow names tree =
      if walk.maxDepth < names.length then
        [depthWarning walk.maxDepth (walk.root.below names)]
      else [] := by
  have hclosed : 0 < names.length ∧
      (walk.nonRecursive = true ∨ walk.ignores (walk.root.below names) true = true) :=
    ⟨List.length_pos_iff.mpr hne, .inr h⟩
  rw [findingsBelow, findings.eq_def, barrier?_eq hfaults, if_pos hclosed]
  by_cases hdeep : walk.maxDepth < names.length
  · simp only [if_pos hdeep]
  · simp only [if_neg hdeep]

theorem entryFindingsBelow_of_ignores {above : List Name} (hopen : walk.IsOpen above) {name : Name}
    (h : walk.ignores (walk.root.below (above ++ [name])) true = true) {tree : FileTree}
    (hfolder : tree.isFolder = true) :
    walk.entryFindingsBelow above name tree = walk.depthWarnings above [name] := by
  rw [entryFindingsBelow_of_isFolder hfaults hfolder]
  by_cases hdirect : walk.nonRecursive = true
  · rw [if_pos hdirect, depthWarnings_of_nonRecursive _ hdirect]
  · rw [if_neg hdirect, findingsBelow_of_ignores hfaults (List.concat_ne_nil _ _) h, depthWarnings]
    simp only [WarnsBelow, comesTo_singleton, hopen, Bool.eq_false_iff.mpr hdirect, true_and]

/-- A walk comes to the same findings before and after an entry was removed, but for those at the
entry, if it comes to that. -/
theorem findingsBelow_remove_entry {tree found : FileTree} (honce : tree.ListsNamesOnce)
    (above : List Name) {names : List Name} {name : Name}
    (hat : tree.at? (names ++ [name]) = some found) :
    ∃ before after,
      walk.findingsBelow above tree =
        before ++
          (if walk.ComesTo above (names ++ [name]) then
            walk.entryFindingsBelow (above ++ names) name found
          else []) ++ after ∧
      walk.findingsBelow above (tree.remove (names ++ [name])) = before ++ after := by
  induction names generalizing tree above with
  | nil =>
      simp only [List.nil_append, List.append_nil, comesTo_singleton] at hat ⊢
      by_cases hopen : walk.IsOpen above
      · rw [if_pos hopen]
        cases tree with
        | directory entries =>
            obtain ⟨child, hchild, hfound⟩ := Option.bind_eq_some_iff.mp hat
            cases hfound
            obtain ⟨before, after, hentries, hwithout, _⟩ :=
              exists_findingsBelow_of_isOpen hfaults hopen honce.nodup hchild
            exact ⟨before, after, hentries, hwithout⟩
        | _ => cases hat
      · obtain ⟨closed, hclosed⟩ := findingsBelow_of_not_isOpen hfaults hopen
        rw [if_neg hopen, hclosed, hclosed]
        exact ⟨closed, [], by simp, by simp⟩
  | cons first rest ih =>
      by_cases hopen : walk.IsOpen above
      case neg =>
        obtain ⟨closed, hclosed⟩ := findingsBelow_of_not_isOpen hfaults hopen
        rw [hclosed, hclosed, if_neg]
        · exact ⟨closed, [], by simp, by simp⟩
        · rw [List.cons_append, comesTo_cons]
          exact fun hcomes => hopen hcomes.1
      case pos =>
        cases tree with
        | directory entries =>
            obtain ⟨child, hchild, hbelow⟩ := Option.bind_eq_some_iff.mp hat
            obtain ⟨before, after, hentries, _, hwith⟩ :=
              exists_findingsBelow_of_isOpen hfaults hopen honce.nodup hchild
            -- the first name leads to a directory before and after
            have hmore : rest ++ [name] ≠ [] := List.concat_ne_nil _ _
            have hchildFolder : child.isFolder = true := FileTree.isFolder_of_at? hbelow hmore
            have hchangedFolder : (child.remove (rest ++ [name])).isFolder = true :=
              (FileTree.isFolder_remove child hmore).trans hchildFolder
            have hcomes : walk.ComesTo above (first :: (rest ++ [name])) ↔
                walk.ComesTo (above ++ [first]) (rest ++ [name]) := by
              rw [comesTo_cons, and_iff_right hopen]
            rw [List.cons_append, FileTree.remove_cons hchild hmore, hentries, hwith,
              entryFindingsBelow_of_isFolder hfaults hchildFolder,
              entryFindingsBelow_of_isFolder hfaults hchangedFolder,
              List.append_cons above first rest]
            simp only [hcomes]
            by_cases hdirect : walk.nonRecursive = true
            · have hclosed : ¬ walk.ComesTo (above ++ [first]) (rest ++ [name]) := by
                intro hcomes
                have hentered := hcomes 0 (List.length_pos_iff.mpr hmore)
                rw [List.take_zero, List.append_nil] at hentered
                have hrecursive := (hentered.2 (List.concat_ne_nil _ _)).1
                rw [hdirect] at hrecursive
                cases hrecursive
              rw [if_pos hdirect, if_pos hdirect, if_neg hclosed]
              exact ⟨before, after, by simp, by simp⟩
            · obtain ⟨inner, outer, hfull, hless⟩ :=
                ih (honce.of_mem (FileTree.mem_of_lookUp? hchild)) (above ++ [first]) hbelow
              rw [if_neg hdirect, if_neg hdirect, hfull, hless]
              refine ⟨before ++ inner, outer ++ after, ?_, ?_⟩
              all_goals simp only [List.append_assoc]
        | _ => cases hat

/-- A walk comes to the same findings before and after an ignored directory was deleted, but for a
warning about its depth. -/
theorem findingsBelow_remove {tree ignored : FileTree} (honce : tree.ListsNamesOnce)
    (above : List Name) {names : List Name} (hne : names ≠ []) (hat : tree.at? names = some ignored)
    (hfolder : ignored.isFolder = true)
    (h : walk.ignores (walk.root.below (above ++ names)) true = true) :
    ∃ before after,
      walk.findingsBelow above tree = before ++ walk.depthWarnings above names ++ after ∧
      walk.findingsBelow above (tree.remove names) = before ++ after := by
  obtain ⟨directory, name, rfl⟩ := (List.eq_nil_or_concat names).resolve_left hne
  rw [List.concat_eq_append] at hat h ⊢
  obtain ⟨before, after, hmore, hless⟩ := findingsBelow_remove_entry hfaults honce above hat
  refine ⟨before, after, ?_, hless⟩
  rw [hmore]
  congr 2
  by_cases hcomes : walk.ComesTo above (directory ++ [name])
  · rw [← List.append_assoc] at h
    rw [if_pos hcomes, entryFindingsBelow_of_ignores hfaults hcomes.isOpen h hfolder]
    simp only [depthWarnings, WarnsBelow, comesTo_singleton, hcomes, hcomes.isOpen,
      List.append_assoc]
  · rw [if_neg hcomes, depthWarnings_of_not_comesTo _ hcomes]

end

end Walk

/-! ## Scans with and without a warning -/

namespace ScanState

/-- Whether a scan is another one that has also logged a certain problem, at some moment. -/
def AlsoLogged (record : LogRecord) (state other : ScanState) : Prop :=
  ∃ later earlier, state.log = later ++ earlier ∧
    other =
      { state with
        report := { state.report with errorCount := state.report.errorCount + 1 }
        log := later ++ record :: earlier }

variable {record : LogRecord} {state other : ScanState}

theorem alsoLogged_logProblem (state : ScanState) (record : LogRecord) :
    AlsoLogged record state (state.logProblem record) :=
  ⟨[], state.log, rfl, rfl⟩

theorem AlsoLogged.logProblem (h : AlsoLogged record state other) (problem : LogRecord) :
    AlsoLogged record (state.logProblem problem) (other.logProblem problem) := by
  obtain ⟨later, earlier, hlog, rfl⟩ := h
  exact ⟨problem :: later, earlier, congrArg (problem :: ·) hlog, rfl⟩

theorem AlsoLogged.enter (h : AlsoLogged record state other) :
    AlsoLogged record state.enter other.enter := by
  obtain ⟨later, earlier, hlog, rfl⟩ := h
  exact ⟨later, earlier, hlog, rfl⟩

theorem AlsoLogged.recordFile (h : AlsoLogged record state other) {count : FileCount}
    (hcount : count.IsBalanced) :
    AlsoLogged record (state.recordFile count) (other.recordFile count) := by
  obtain ⟨later, earlier, hlog, rfl⟩ := h
  rw [recordFile_of_isBalanced _ hcount, recordFile_of_isBalanced _ hcount]
  exact ⟨later, earlier, hlog, rfl⟩

/-- Two scans one of which has logged a problem more both end at a finding, or both go on. -/
theorem AlsoLogged.step (h : AlsoLogged record state other) (maxEntries : Int) (root : Path)
    (finding : Finding) :
    (∃ error, state.step maxEntries root finding = .error error ∧
      other.step maxEntries root finding = .error error) ∨
    ∃ next otherNext, state.step maxEntries root finding = .ok next ∧
      other.step maxEntries root finding = .ok otherNext ∧ AlsoLogged record next otherNext := by
  cases finding with
  | problem problem => exact .inr ⟨_, _, rfl, rfl, h.logProblem problem⟩
  | candidate path contents =>
      have hentries : other.entries = state.entries := by
        obtain ⟨_, _, _, rfl⟩ := h
        rfl
      simp only [ScanState.step, countCandidate]
      by_cases hfull : maxEntries < ((state.entries + 1 : Nat) : Int)
      · have hotherFull : maxEntries < ((other.entries + 1 : Nat) : Int) := hentries ▸ hfull
        rw [if_pos hfull, if_pos hotherFull]
        exact .inl ⟨_, rfl, rfl⟩
      · have hotherRoom : ¬ maxEntries < ((other.entries + 1 : Nat) : Int) := hentries ▸ hfull
        rw [if_neg hfull, if_neg hotherRoom]
        rcases countFile_cases (some root) none path contents with
          hnone | ⟨failure, herror⟩ | ⟨count, _, _, hsome, _, hdescribes⟩
        · rw [hnone]
          exact .inr ⟨_, _, rfl, rfl, h.enter⟩
        · rw [herror]
          exact .inr ⟨_, _, rfl, rfl, h.enter.logProblem _⟩
        · rw [hsome]
          exact .inr ⟨_, _, rfl, rfl, h.enter.recordFile hdescribes.isBalanced⟩

end ScanState

namespace ScanOutcome

/-- Whether a run comes to what another one does and has also logged a certain problem, unless both
ended before that. -/
structure AlsoLogged (record : LogRecord) (outcome other : ScanOutcome) : Prop where
  error_eq : other.error = outcome.error
  eq_or_alsoLogged : other = outcome ∧ outcome.error ≠ none ∨
    ScanState.AlsoLogged record outcome.state other.state

theorem AlsoLogged.of_error {outcome : ScanOutcome} (h : outcome.error ≠ none)
    (record : LogRecord) : AlsoLogged record outcome outcome :=
  ⟨rfl, .inl ⟨rfl, h⟩⟩

variable {record : LogRecord} {state other : ScanState} (maxEntries : Int) (root : Path)

theorem ofFindings_of_alsoLogged (h : ScanState.AlsoLogged record state other)
    (findings : List Finding) :
    let outcome := ofFindings maxEntries root state findings
    let otherOutcome := ofFindings maxEntries root other findings
    otherOutcome.error = outcome.error ∧
      ScanState.AlsoLogged record outcome.state otherOutcome.state := by
  induction findings generalizing state other with
  | nil => exact ⟨rfl, h⟩
  | cons finding rest ih =>
      rcases h.step maxEntries root finding with
        ⟨error, hstep, hother⟩ | ⟨next, otherNext, hstep, hother, hnext⟩
      · simp only [ofFindings, hstep, hother]
        exact ⟨trivial, h⟩
      · simp only [ofFindings, hstep, hother]
        exact ih hnext

/-- With a problem more among the findings, a run ends before it comes to that, or logs it. -/
theorem ofFindings_insert_problem (state : ScanState) (record : LogRecord)
    (before after : List Finding) :
    AlsoLogged record (ofFindings maxEntries root state (before ++ after))
      (ofFindings maxEntries root state (before ++ .problem record :: after)) := by
  induction before generalizing state with
  | nil =>
      obtain ⟨herror, hlogged⟩ := ofFindings_of_alsoLogged maxEntries root
        (state.alsoLogged_logProblem record) after
      exact ⟨herror, .inr hlogged⟩
  | cons finding rest ih =>
      cases hstep : state.step maxEntries root finding with
      | error error =>
          simp only [List.cons_append, ofFindings, hstep]
          refine .of_error (fun hnone => ?_) record
          cases hnone
      | ok next =>
          simp only [List.cons_append, ofFindings, hstep]
          exact ih next

end ScanOutcome

/-! ## Scans before and after a deletion -/

/-- What a scan goes by in a directory, as far as the rules that are listed there can be read. -/
def ScanOptions.heededWalk (options : ScanOptions) (world : FileTree) (root : Path) : Walk :=
  options.walk root ((heededRules world options root).toOption.getD []) false

theorem scanRoot_of_isFolder {world tree : FileTree} {path : Path}
    (hpath : world.node path = .ok tree) (h : tree.isFolder = true) :
    scanRoot world path = world.realPath path := by
  rw [scanRoot, FileTree.isDirectory, hpath]
  cases tree with
  | directory _ | lockedDirectory => rfl
  | _ => cases h

theorem heededWalk_eq {world : FileTree} {options : ScanOptions} {root : Path}
    {listed : List IgnoreRule} (h : heededRules world options root = .ok listed) :
    options.heededWalk world root = options.walk root listed false := by
  rw [ScanOptions.heededWalk, h]
  rfl

/-- A scan comes to the same before and after an ignored directory was deleted, unless it warns
about it. -/
theorem Scan.run_remove {walk : Walk} (hfaults : walk.faultsEnabled = false) (maxEntries : Int)
    {tree ignored : FileTree} {names : List Name} (honce : tree.ListsNamesOnce) (hne : names ≠ [])
    (hat : tree.at? names = some ignored) (hfolder : ignored.isFolder = true)
    (h : walk.ignores (walk.root.below names) true = true) :
    let outcome := (Scan.mk walk.root tree.sorted walk maxEntries).run
    let smaller := (Scan.mk walk.root (tree.remove names).sorted walk maxEntries).run
    (¬ walk.WarnsBelow [] names → outcome = smaller) ∧
    (walk.WarnsBelow [] names → ∃ record,
      Walk.depthWarning walk.maxDepth (walk.root.below names) = .problem record ∧
        ScanOutcome.AlsoLogged record smaller outcome) := by
  obtain ⟨before, after, hmore, hless⟩ :=
    Walk.findingsBelow_remove hfaults honce [] hne hat hfolder h
  rw [Walk.findingsBelow, Path.below_nil] at hmore hless
  intro outcome smaller
  have houtcome : outcome = .ofFindings maxEntries walk.root (.start walk.root)
      (before ++ walk.depthWarnings [] names ++ after) := by
    rw [← hmore]
    rfl
  have hsmaller : smaller = .ofFindings maxEntries walk.root (.start walk.root)
      (before ++ after) := by
    rw [← hless]
    rfl
  rw [houtcome, hsmaller]
  constructor
  · intro hsilent
    rw [Walk.depthWarnings, if_neg hsilent, List.append_nil]
  · intro hwarns
    refine ⟨_, rfl, ?_⟩
    rw [Walk.depthWarnings, if_pos hwarns, List.append_assoc]
    exact ScanOutcome.ofFindings_insert_problem _ _ _ _ _ _

/-- Where the way to a list of ignore patterns leads around what was deleted, it reads the same. -/
theorem heededRules_remove {world ignored : FileTree} {gone : List Name} {options : ScanOptions}
    {root : Path} (hat : world.at? gone = some ignored) (hfolder : ignored.isFolder = true)
    (hlist : options.useGitignore = true → world.Avoids gone (root.child ignoreListName)) :
    heededRules (world.remove gone) options root = heededRules world options root := by
  by_cases hheeded : options.useGitignore = true
  · have haround := hlist hheeded
    rw [heededRules, if_pos hheeded, heededRules, if_pos hheeded, listedRules, listedRules,
      FileTree.denotes_remove hat hfolder haround, FileTree.read_remove hat hfolder haround]
  · rw [heededRules, if_neg hheeded, heededRules, if_neg hheeded]

/-- Where the ways to a directory and to its list of ignore patterns lead around what was deleted,
a scan begins as it did, and if it cannot, for the same reason. -/
theorem Scan.prepare_removeBelow {world ignored : FileTree} {options : ScanOptions} {path : Path}
    {entries : List (Name × FileTree)} {names : List Name}
    (hpath : world.node path = .ok (.directory entries)) (hne : names ≠ [])
    (hat : (FileTree.directory entries).at? names = some ignored)
    (hfolder : ignored.isFolder = true)
    (hway : world.Avoids (world.namesBelow path names) path)
    (hlist : options.useGitignore = true →
      world.Avoids (world.namesBelow path names) ((world.realPath path).child ignoreListName)) :
    let walk := options.heededWalk world (world.realPath path)
    (∃ error, prepare world false options path = .error error ∧
      prepare (world.removeBelow path names) false options path = .error error) ∨
    prepare world false options path =
      .ok ⟨walk.root, (FileTree.directory entries).sorted, walk, options.maxEntries⟩ ∧
    prepare (world.removeBelow path names) false options path =
      .ok ⟨walk.root, ((FileTree.directory entries).remove names).sorted, walk,
        options.maxEntries⟩ := by
  obtain ⟨hreal, hsmaller⟩ := FileTree.node_removeBelow hpath hne hat hfolder hway
  have hrules : heededRules (world.removeBelow path names) options (world.realPath path) =
      heededRules world options (world.realPath path) :=
    heededRules_remove ((FileTree.at?_namesBelow hpath).trans hat) hfolder hlist
  intro walk
  rw [prepare_eq hpath, prepare_eq hsmaller, scanRoot_of_directory hpath,
    scanRoot_of_isFolder hsmaller (FileTree.isFolder_remove _ hne), hreal, hrules]
  cases options.badFilespec? with
  | some pattern => exact .inl ⟨_, rfl, rfl⟩
  | none =>
      cases hlisted : heededRules world options (world.realPath path) with
      | error failure => exact .inl ⟨_, rfl, rfl⟩
      | ok listed =>
          have hwalk : walk = options.walk (world.realPath path) listed false :=
            heededWalk_eq hlisted
          rw [hwalk]
          exact .inr ⟨rfl, rfl⟩

/-- **An ignored directory can be deleted without a trace, unless its depth is warned about.** A
scan comes to the same, its log and its failure included, whether or not there is a directory that
is excluded or that the rules leave out. Only where the directory is too deep by one, in a directory
that is looked into, a warning goes away with it. -/
theorem scanTree_removeBelow_ignored {world ignored : FileTree} (options : ScanOptions)
    {path : Path} {entries : List (Name × FileTree)} {names : List Name}
    (hpath : world.node path = .ok (.directory entries))
    (honce : (FileTree.directory entries).ListsNamesOnce) (hne : names ≠ [])
    (hat : (FileTree.directory entries).at? names = some ignored)
    (hfolder : ignored.isFolder = true)
    (hway : world.Avoids (world.namesBelow path names) path)
    (hlist : options.useGitignore = true →
      world.Avoids (world.namesBelow path names) ((world.realPath path).child ignoreListName))
    (hignored : (options.heededWalk world (world.realPath path)).ignores
      ((world.realPath path).below names) true = true) :
    let walk := options.heededWalk world (world.realPath path)
    let outcome := scanTree world false options path
    let smaller := scanTree (world.removeBelow path names) false options path
    (¬ walk.WarnsBelow [] names → outcome = smaller) ∧
    (walk.WarnsBelow [] names → ∃ record,
      Walk.depthWarning walk.maxDepth (walk.root.below names) = .problem record ∧
        ScanOutcome.AlsoLogged record smaller outcome) := by
  intro walk outcome smaller
  rcases Scan.prepare_removeBelow hpath hne hat hfolder hway hlist with
    ⟨error, houtcome, hsmaller⟩ | ⟨houtcome, hsmaller⟩
  · have hsame : outcome = smaller := by
      simp only [outcome, smaller, scanTree, houtcome, hsmaller]
    have hended : smaller.error ≠ none := by
      simp [smaller, scanTree, hsmaller]
    rw [hsame]
    exact ⟨fun _ => rfl, fun _ => ⟨_, rfl, .of_error hended _⟩⟩
  · simp only [outcome, smaller, scanTree, houtcome, hsmaller]
    exact Scan.run_remove rfl _ honce hne hat hfolder hignored

/-- A scan of a directory with an excluded one in it, which may be too deep, and without a list of
ignore patterns. -/
theorem scanTree_removeBelow_ignored_target :
    let entries : List (Name × FileTree) :=
      [(⟨"target", by decide⟩, .directory [(⟨"b.py", by decide⟩, .lockedFile)]),
        (⟨"a.py", by decide⟩, .file "x".toUTF8)]
    let world : FileTree := .directory [(⟨"home", by decide⟩, .directory entries)]
    let path : Path := ⟨.slash, [⟨"home", by decide⟩]⟩
    let names : List Name := [⟨"target", by decide⟩]
    let smaller : FileTree := world.removeBelow path names
    world.node path = .ok (.directory entries) ∧
    smaller.node path = .ok (.directory [(⟨"a.py", by decide⟩, .file "x".toUTF8)]) ∧
    scanTree world false { useGitignore := true } path =
      scanTree smaller false { useGitignore := true } path ∧
    ∃ record, Walk.depthWarning 0 (path.below names) = .problem record ∧
      ScanOutcome.AlsoLogged record
        (scanTree smaller false { useGitignore := true, maxDepth := 0 } path)
        (scanTree world false { useGitignore := true, maxDepth := 0 } path) := by
  intro entries world path names smaller
  have hpath : world.node path = .ok (.directory entries) := by
    simp [world, path, FileTree.node, FileTree.locate, FileTree.follow, FileTree.at?,
      FileTree.lookUp?, Name.up]
  have hroot : world.realPath path = path := by
    simp [world, path, FileTree.realPath, FileTree.locate, FileTree.follow, FileTree.at?,
      FileTree.lookUp?, Name.up]
  have honce : (FileTree.directory entries).ListsNamesOnce := by
    have hleaf : ∀ tree : FileTree, tree.isFolder = false → tree.ListsNamesOnce := by
      intro tree hfile
      apply FileTree.listsNamesOnce_of_ne_directory
      rintro found rfl
      cases hfile
    have hbelow : (FileTree.directory [(⟨"b.py", by decide⟩, .lockedFile)]).ListsNamesOnce :=
      FileTree.listsNamesOnce_directory (by decide) (by simpa using hleaf .lockedFile rfl)
    exact FileTree.listsNamesOnce_directory (by decide)
      (by simpa [entries, hbelow] using hleaf _ rfl)
  have hat : (FileTree.directory entries).at? names =
      some (.directory [(⟨"b.py", by decide⟩, .lockedFile)]) := by
    simp [entries, names, FileTree.at?, FileTree.lookUp?]
  have hgone : world.namesBelow path names = path.names ++ names := by
    rw [FileTree.namesBelow, hroot]
  have henter : world.turn FileTree.maxLinks [] ⟨"home", by decide⟩ =
      ⟨FileTree.maxLinks, [⟨"home", by decide⟩], none, []⟩ := by
    simp [world, FileTree.turn, FileTree.at?, FileTree.lookUp?, Name.up]
  have hlisted : world.turn FileTree.maxLinks [⟨"home", by decide⟩] ignoreListName =
      ⟨FileTree.maxLinks, [ignoreListName, ⟨"home", by decide⟩], some .notFound, []⟩ := by
    simp [world, entries, FileTree.turn, FileTree.at?, FileTree.lookUp?, Name.up, ignoreListName]
  have hway : world.Avoids (world.namesBelow path names) path := by
    rw [hgone]
    refine .goesOn (by decide) ?_
    rw [henter]
    exact .arrives (by decide)
  have hlist : world.Avoids (world.namesBelow path names)
      ((world.realPath path).child ignoreListName) := by
    rw [hgone, hroot]
    refine .goesOn (by decide) ?_
    rw [henter]
    refine .goesOn (by decide) ?_
    rw [hlisted]
    exact .arrives (by decide)
  have hexcluded : ∀ options : ScanOptions,
      (options.heededWalk world (world.realPath path)).ignores
        ((world.realPath path).below names) true = true := by
    intro options
    rw [hroot, Walk.ignores, Bool.or_eq_true]
    exact .inl (by decide)
  have hwide := scanTree_removeBelow_ignored { useGitignore := true } hpath honce
    (List.cons_ne_nil _ _) hat rfl hway (fun _ => hlist) (hexcluded _)
  have hnarrow := scanTree_removeBelow_ignored { useGitignore := true, maxDepth := 0 } hpath honce
    (List.cons_ne_nil _ _) hat rfl hway (fun _ => hlist) (hexcluded _)
  rw [hroot] at hwide hnarrow
  refine ⟨hpath, ?_, hwide.1 (by decide), hnarrow.2 (by decide)⟩
  rw [(FileTree.node_removeBelow hpath (List.cons_ne_nil _ _) hat rfl hway).2]
  simp [entries, FileTree.remove, FileTree.without]

end LineCensus
