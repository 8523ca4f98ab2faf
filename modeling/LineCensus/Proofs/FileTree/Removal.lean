/-
# Removing something from a tree

Removing something changes the directories on the way to it and nothing beside them. A
tree says nothing about the order of entries, and the entries of a changed directory are
not where they were; sorted, they are. So a sorted tree from which something was removed
is the sorted tree without it, entry by entry.
-/

import LineCensus.Proofs.FileTree.Files

namespace LineCensus

namespace FileTree

/-- Whether something is a directory, locked or not. -/
def isFolder : FileTree → Bool
  | directory _ | lockedDirectory => true
  | _ => false

/-- Whether something is a link. -/
def isLink : FileTree → Bool
  | link _ => true
  | _ => false

theorem isLink_of_isFolder {tree : FileTree} (h : tree.isFolder = true) : tree.isLink = false := by
  cases tree with
  | link target => cases h
  | _ => rfl

theorem isLink_of_isRegular {tree : FileTree} (h : tree.isRegular = true) :
    tree.isLink = false := by
  cases tree with
  | link target => cases h
  | _ => rfl

theorem isFolder_sorted (tree : FileTree) : tree.sorted.isFolder = tree.isFolder := by
  cases tree with
  | directory entries =>
      rw [sorted_directory]
      rfl
  | _ => rfl

/-- Only a directory has something below it. -/
theorem isFolder_of_at? {tree found : FileTree} {names : List Name}
    (h : tree.at? names = some found) (hne : names ≠ []) : tree.isFolder = true := by
  cases names with
  | nil => exact absurd rfl hne
  | cons name rest =>
      cases tree with
      | directory entries => rfl
      | _ => cases h

/-! ## Changed entries -/

theorem lookUp?_withEntry (entries : List (Name × FileTree)) (name : Name) (tree : FileTree) :
    lookUp? (withEntry entries name tree) name = some tree := by
  have hothers : (without entries name).find? (·.1 = name) = none := by
    rw [without, List.find?_filter, List.find?_eq_none]
    simp
  rw [lookUp?, withEntry, List.find?_append, hothers]
  simp

theorem remove_cons {entries : List (Name × FileTree)} {name : Name} {child : FileTree}
    (hchild : lookUp? entries name = some child) {names : List Name} (h : names ≠ []) :
    (directory entries).remove (name :: names) =
      directory (withEntry entries name (child.remove names)) := by
  cases names with
  | nil => exact absurd rfl h
  | cons next rest => simp only [remove, hchild]

theorem isFolder_remove (tree : FileTree) {names : List Name} (h : names ≠ []) :
    (tree.remove names).isFolder = tree.isFolder := by
  cases names with
  | nil => exact absurd rfl h
  | cons name rest =>
      cases tree with
      | directory entries =>
          simp only [remove]
          split <;> rfl
      | _ => rfl

/-- Seen from a directory on the way, what was removed was removed below that directory. -/
theorem at?_remove_append {tree found : FileTree} {above names : List Name}
    (h : tree.at? above = some found) (hne : names ≠ []) :
    (tree.remove (above ++ names)).at? above = some (found.remove names) := by
  induction above generalizing tree with
  | nil =>
      cases h
      rfl
  | cons name rest ih =>
      cases tree with
      | directory entries =>
          obtain ⟨child, hchild, hfound⟩ := Option.bind_eq_some_iff.mp h
          rw [List.cons_append, remove_cons hchild (List.append_ne_nil_of_right_ne_nil rest hne),
            at?_cons, lookUp?_withEntry]
          exact ih hfound
      | _ => cases h

/-! ## Changed entries in their order -/

/-- What sorting makes of entries is the one order of them in which their names ascend. -/
theorem sortedEntries_eq_of_perm {entries others : List (Name × FileTree)}
    (hascend : others.Pairwise fun a b => a.1.text < b.1.text)
    (hperm : others.Perm (entries.map fun entry => (entry.1, entry.2.sorted))) :
    sortedEntries entries = others := by
  have hnodup : (entries.map (·.1)).Nodup := by
    have hnames : (others.map (·.1)).Perm (entries.map (·.1)) := by
      have hnames := hperm.map Prod.fst
      rwa [List.map_map] at hnames
    refine hnames.nodup_iff.mp (List.pairwise_map.mpr (hascend.imp fun {a b} hab hsame => ?_))
    rw [hsame] at hab
    exact String.lt_irrefl _ hab
  refine List.Perm.eq_of_pairwise (fun a b _ _ hab hba => ?_) (sortedEntries_pairwise hnodup)
    hascend ((sortedEntries_perm entries).trans hperm.symm)
  exact absurd hba (String.lt_asymm hab)

/-- In a sorted directory an entry stands at the same place whatever it denotes, and without it the
others stand as they stood. -/
theorem exists_sortedEntries {entries : List (Name × FileTree)} (h : (entries.map (·.1)).Nodup)
    {name : Name} {child : FileTree} (hchild : lookUp? entries name = some child) :
    ∃ before after,
      sortedEntries entries = before ++ (name, child.sorted) :: after ∧
      sortedEntries (without entries name) = before ++ after ∧
      ∀ changed, sortedEntries (withEntry entries name changed) =
        before ++ (name, changed.sorted) :: after := by
  have hmem : (name, child.sorted) ∈ sortedEntries entries :=
    (sortedEntries_perm entries).mem_iff.mpr (List.mem_map.mpr ⟨_, mem_of_lookUp? hchild, rfl⟩)
  obtain ⟨before, after, hsorted⟩ := List.append_of_mem hmem
  have hascend := hsorted ▸ sortedEntries_pairwise h
  have hothers : ((without entries name).map fun entry => (entry.1, entry.2.sorted)).Perm
      (before ++ after) := by
    have hdiffer : ∀ entry ∈ before ++ after, decide (entry.1 ≠ name) = true := by
      intro entry hentry
      rw [decide_eq_true_eq]
      rintro rfl
      rw [List.pairwise_append, List.pairwise_cons] at hascend
      rcases List.mem_append.mp hentry with hbefore | hafter
      · exact String.lt_irrefl _
          (hascend.2.2 entry hbefore (entry.1, child.sorted) List.mem_cons_self)
      · exact String.lt_irrefl _ (hascend.2.1.1 entry hafter)
    have hfiltered := ((sortedEntries_perm entries).filter fun entry => entry.1 ≠ name).symm
    rw [List.filter_map, hsorted, List.filter_append, List.filter_cons_of_neg (by simp),
      ← List.filter_append, List.filter_eq_self.mpr hdiffer] at hfiltered
    exact hfiltered
  refine ⟨before, after, hsorted, ?_, fun changed => ?_⟩
  · refine sortedEntries_eq_of_perm (hascend.sublist ?_) hothers.symm
    exact (List.sublist_cons_self _ _).append_left before
  · refine sortedEntries_eq_of_perm ?_ ?_
    · simpa only [List.pairwise_append, List.pairwise_cons, List.forall_mem_cons] using hascend
    · rw [withEntry, List.map_append]
      exact List.perm_middle.trans
        ((List.perm_append_singleton _ _).symm.trans (hothers.symm.append_right _))

end FileTree

end LineCensus
