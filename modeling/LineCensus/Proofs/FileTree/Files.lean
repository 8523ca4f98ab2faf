/-
# The files of a tree

The regular files of a tree, each with the names that lead to it, a directory's files
standing where the directory stands among its entries. In a sorted tree this is the
order in which paths are compared name by name, whatever the order was in which the
directories listed their entries.

Names are only asked to be listed once in a directory. Links and special files are not
regular, and a locked directory shows no files.
-/

import LineCensus.FileTree
import LineCensus.Proofs.Census.Table
import Mathlib.Data.List.Lex
import Mathlib.Data.List.Perm.Basic

namespace LineCensus

namespace Name

theorem eq_of_text_eq {a b : Name} (h : a.text = b.text) : a = b := by
  cases a
  cases b
  cases h
  rfl

/-- The order of paths that begin in the same place. -/
def Ascend : List Name → List Name → Prop :=
  List.Lex fun a b => a.text < b.text

theorem Ascend.asymm {first second : List Name} (h : Ascend first second) :
    ¬ Ascend second first := by
  have hname : Std.Asymm fun a b : Name => a.text < b.text := ⟨fun _ _ => String.lt_asymm⟩
  exact (List.Lex.asymm _).asymm _ _ h

end Name

namespace FileTree

/-! ## Going through a tree -/

mutual

/-- What holds of a directory once it holds of its entries, and of everything else anyway, holds
of every tree. -/
@[elab_as_elim]
theorem inductionOn {motive : FileTree → Prop} (tree : FileTree)
    (directory : ∀ entries, (∀ entry ∈ entries, motive entry.2) → motive (.directory entries))
    (leaf : ∀ tree, (∀ entries, tree ≠ .directory entries) → motive tree) : motive tree :=
  match tree with
  | .directory entries => directory entries (inductionOnEach entries directory leaf)
  | .file _ | .lockedFile | .lockedDirectory | .link _ | .special =>
    leaf _ fun _ h => FileTree.noConfusion h

theorem inductionOnEach {motive : FileTree → Prop} (entries : List (Name × FileTree))
    (directory : ∀ entries, (∀ entry ∈ entries, motive entry.2) → motive (.directory entries))
    (leaf : ∀ tree, (∀ entries, tree ≠ .directory entries) → motive tree) :
    ∀ entry ∈ entries, motive entry.2 :=
  match entries with
  | [] => fun _ h => absurd h List.not_mem_nil
  | (_, tree) :: rest =>
    List.forall_mem_cons.mpr
      ⟨inductionOn tree directory leaf, inductionOnEach rest directory leaf⟩

end

/-- Whether something is a file with lines in it, if one may read them. -/
def isRegular : FileTree → Bool
  | file _ | lockedFile => true
  | _ => false

mutual

/-- The regular files of a tree, each with the names that lead to it. -/
def files : FileTree → List (List Name × FileTree)
  | directory entries => filesEach entries
  | tree => if tree.isRegular then [([], tree)] else []

/-- The regular files among entries and below them. -/
def filesEach : List (Name × FileTree) → List (List Name × FileTree)
  | [] => []
  | (name, tree) :: rest => tree.files.map (Prod.map (name :: ·) id) ++ filesEach rest

end

theorem files_directory (entries : List (Name × FileTree)) :
    (directory entries).files =
      entries.flatMap fun entry => entry.2.files.map (Prod.map (entry.1 :: ·) id) := by
  rw [files]
  induction entries with
  | nil => rfl
  | cons entry rest ih => rw [filesEach, ih, List.flatMap_cons]

theorem files_of_ne_directory {tree : FileTree} (h : ∀ entries, tree ≠ .directory entries) :
    tree.files = if tree.isRegular then [([], tree)] else [] := by
  cases tree with
  | directory entries => exact absurd rfl (h entries)
  | _ => rfl

theorem ne_nil_of_mem_files {entries : List (Name × FileTree)} {file : List Name × FileTree}
    (h : file ∈ (directory entries).files) : file.1 ≠ [] := by
  rw [files_directory, List.mem_flatMap] at h
  obtain ⟨entry, _, hfile⟩ := h
  obtain ⟨below, _, rfl⟩ := List.mem_map.mp hfile
  exact List.cons_ne_nil _ _

/-! ## Sorting a tree -/

theorem sortedEach_eq_map (entries : List (Name × FileTree)) :
    sortedEach entries = entries.map fun entry => (entry.1, entry.2.sorted) := by
  induction entries with
  | nil => rfl
  | cons entry rest ih => rw [sortedEach, ih, List.map_cons]

/-- The entries of a sorted directory, in the order that sorting gives them. -/
def sortedEntries (entries : List (Name × FileTree)) : List (Name × FileTree) :=
  (entries.map fun entry => (entry.1, entry.2.sorted)).mergeSort
    fun a b => decide (a.1.text ≤ b.1.text)

theorem sorted_directory (entries : List (Name × FileTree)) :
    (directory entries).sorted = directory (sortedEntries entries) := by
  rw [sorted, sortedEach_eq_map, sortedEntries]

theorem sorted_of_ne_directory {tree : FileTree} (h : ∀ entries, tree ≠ .directory entries) :
    tree.sorted = tree := by
  cases tree with
  | directory entries => exact absurd rfl (h entries)
  | _ => rfl

theorem sortedEntries_perm (entries : List (Name × FileTree)) :
    (sortedEntries entries).Perm (entries.map fun entry => (entry.1, entry.2.sorted)) :=
  List.mergeSort_perm _ _

/-- Sorting moves files around but neither adds nor removes any. -/
theorem sorted_files_perm (tree : FileTree) : tree.sorted.files.Perm tree.files := by
  induction tree using inductionOn with
  | directory entries ih =>
      rw [sorted_directory, files_directory, files_directory]
      refine ((sortedEntries_perm entries).flatMap_right _).trans ?_
      rw [List.flatMap_map]
      exact List.Perm.flatMap_left _ fun entry hmem => (ih entry hmem).map _
  | leaf tree hleaf => rw [sorted_of_ne_directory hleaf]

/-! ## Trees in which a directory lists a name once -/

/-- A tree in which no directory lists a name twice. -/
def ListsNamesOnce (tree : FileTree) : Prop :=
  ∀ names entries, tree.at? names = some (.directory entries) → (entries.map (·.1)).Nodup

theorem at?_cons (entries : List (Name × FileTree)) (name : Name) (names : List Name) :
    (directory entries).at? (name :: names) =
      (lookUp? entries name).bind (·.at? names) := rfl

theorem lookUp?_eq_some_of_mem {entries : List (Name × FileTree)}
    (h : (entries.map (·.1)).Nodup) {entry : Name × FileTree} (hmem : entry ∈ entries) :
    lookUp? entries entry.1 = some entry.2 := by
  induction entries with
  | nil => exact absurd hmem List.not_mem_nil
  | cons first rest ih =>
      rw [List.map_cons, List.nodup_cons] at h
      rcases List.mem_cons.mp hmem with rfl | hrest
      · simp [lookUp?]
      · have hname : first.1 ≠ entry.1 := by
          intro hsame
          apply h.1
          rw [hsame]
          exact List.mem_map_of_mem hrest
        have hothers := ih h.2 hrest
        rw [lookUp?] at hothers ⊢
        rwa [List.find?_cons_of_neg (by simpa using hname)]

theorem mem_of_lookUp? {entries : List (Name × FileTree)} {name : Name} {tree : FileTree}
    (h : lookUp? entries name = some tree) : (name, tree) ∈ entries := by
  obtain ⟨entry, hfound, rfl⟩ := Option.map_eq_some_iff.mp h
  have hname := List.find?_some hfound
  rw [decide_eq_true_eq] at hname
  subst hname
  exact List.mem_of_find?_eq_some hfound

namespace ListsNamesOnce

variable {entries : List (Name × FileTree)} (h : (directory entries).ListsNamesOnce)

include h

theorem nodup : (entries.map (·.1)).Nodup := h [] entries rfl

theorem of_mem {entry : Name × FileTree} (hmem : entry ∈ entries) :
    entry.2.ListsNamesOnce := by
  intro names below hbelow
  apply h (entry.1 :: names)
  rwa [at?_cons, lookUp?_eq_some_of_mem h.nodup hmem]

end ListsNamesOnce

theorem at?_of_ne_directory {tree : FileTree} (h : ∀ entries, tree ≠ .directory entries)
    (name : Name) (names : List Name) : tree.at? (name :: names) = none := by
  cases tree with
  | directory entries => exact absurd rfl (h entries)
  | _ => rfl

theorem listsNamesOnce_of_ne_directory {tree : FileTree}
    (h : ∀ entries, tree ≠ .directory entries) : tree.ListsNamesOnce := by
  intro names entries hat
  cases names with
  | nil => exact absurd (Option.some.inj hat) (h entries)
  | cons name names =>
      rw [at?_of_ne_directory h] at hat
      cases hat

theorem listsNamesOnce_directory {entries : List (Name × FileTree)}
    (hnodup : (entries.map (·.1)).Nodup) (hbelow : ∀ entry ∈ entries, entry.2.ListsNamesOnce) :
    (directory entries).ListsNamesOnce := by
  intro names found hat
  cases names with
  | nil =>
      cases hat
      exact hnodup
  | cons name names =>
      obtain ⟨child, hchild, hfound⟩ := Option.bind_eq_some_iff.mp hat
      exact hbelow _ (mem_of_lookUp? hchild) names found hfound

/-- The files of a tree are what its names lead to and is regular. -/
theorem mem_files_iff {tree : FileTree} (h : tree.ListsNamesOnce) {names : List Name}
    {file : FileTree} :
    (names, file) ∈ tree.files ↔ tree.at? names = some file ∧ file.isRegular = true := by
  induction tree using inductionOn generalizing names with
  | directory entries ih =>
      rw [files_directory, List.mem_flatMap]
      constructor
      · rintro ⟨entry, hmem, hfile⟩
        obtain ⟨⟨below, _⟩, hbelow, hsame⟩ := List.mem_map.mp hfile
        cases hsame
        rw [at?_cons, lookUp?_eq_some_of_mem h.nodup hmem]
        exact (ih entry hmem (h.of_mem hmem)).mp hbelow
      · rintro ⟨hat, hregular⟩
        cases names with
        | nil =>
            cases hat
            cases hregular
        | cons name below =>
            rw [at?_cons] at hat
            obtain ⟨child, hchild, hbelow⟩ := Option.bind_eq_some_iff.mp hat
            have hmem := mem_of_lookUp? hchild
            refine ⟨_, hmem, List.mem_map.mpr ⟨(below, file), ?_, rfl⟩⟩
            exact (ih _ hmem (h.of_mem hmem)).mpr ⟨hbelow, hregular⟩
  | leaf tree hleaf =>
      rw [files_of_ne_directory hleaf]
      cases names with
      | nil =>
          by_cases hregular : tree.isRegular
          · simp only [hregular, if_true, List.mem_singleton, Prod.mk.injEq, true_and, at?,
              Option.some.injEq]
            constructor
            · rintro rfl
              exact ⟨rfl, hregular⟩
            · rintro ⟨rfl, _⟩
              rfl
          · simp only [hregular, at?, Option.some.injEq]
            constructor
            · intro hmem
              exact absurd hmem List.not_mem_nil
            · rintro ⟨rfl, hfile⟩
              exact absurd hfile hregular
      | cons name below =>
          rw [at?_of_ne_directory hleaf]
          by_cases hregular : tree.isRegular <;> simp [hregular]

/-! ## The order of files in a sorted tree -/

theorem sortedEntries_pairwise {entries : List (Name × FileTree)}
    (h : (entries.map (·.1)).Nodup) :
    (sortedEntries entries).Pairwise fun a b => a.1.text < b.1.text := by
  have hle : (sortedEntries entries).Pairwise fun a b => a.1.text ≤ b.1.text := by
    refine (List.pairwise_mergeSort ?_ ?_ _).imp of_decide_eq_true
    · intro a b c hab hbc
      rw [decide_eq_true_eq] at hab hbc ⊢
      exact String.le_trans hab hbc
    · intro a b
      rw [Bool.or_eq_true, decide_eq_true_eq, decide_eq_true_eq]
      exact String.le_total _ _
  -- sorting alone only keeps names from descending
  have hne : (sortedEntries entries).Pairwise fun a b => a.1 ≠ b.1 := by
    rw [← List.pairwise_map (f := Prod.fst) (R := (· ≠ ·))]
    refine ((sortedEntries_perm entries).map Prod.fst).nodup_iff.mpr ?_
    rwa [List.map_map]
  refine hle.imp₂ (fun a b hab hdiffer => ?_) hne
  apply Classical.byContradiction
  intro hnot
  exact hdiffer (Name.eq_of_text_eq (String.le_antisymm hab hnot))

/-- In a sorted tree the files stand in the order of their paths. -/
theorem ascend_files_sorted {tree : FileTree} (h : tree.ListsNamesOnce) :
    tree.sorted.files.Pairwise fun a b => Name.Ascend a.1 b.1 := by
  induction tree using inductionOn with
  | directory entries ih =>
      rw [sorted_directory, files_directory, List.pairwise_flatMap]
      constructor
      · intro entry hmem
        obtain ⟨original, horiginal, rfl⟩ :=
          List.mem_map.mp ((sortedEntries_perm entries).mem_iff.mp hmem)
        rw [List.pairwise_map]
        exact (ih original horiginal (h.of_mem horiginal)).imp List.Lex.cons
      · refine (sortedEntries_pairwise h.nodup).imp fun {a b} hab first hfirst second hsecond => ?_
        obtain ⟨⟨_, _⟩, _, rfl⟩ := List.mem_map.mp hfirst
        obtain ⟨⟨_, _⟩, _, rfl⟩ := List.mem_map.mp hsecond
        exact List.Lex.rel hab
  | leaf tree hleaf =>
      rw [sorted_of_ne_directory hleaf, files_of_ne_directory hleaf]
      split
      · exact List.pairwise_singleton _ _
      · exact List.Pairwise.nil

end FileTree

end LineCensus
