/-
# The order of recording

What a directory has under a role and a language is the sum of what the files recorded in
it add there. Sums do not depend on the order of their terms, so neither do the totals of
directories or those of languages over all directories.
-/

import LineCensus.Proofs.Census.Lookup

namespace LineCensus

theorem LineStats.sum_of_perm {first second : List LineStats} (h : first.Perm second) :
    sum first = sum second :=
  h.foldl_eq' (fun a _ b _ c => by rw [merge_assoc, merge_comm a, ← merge_assoc]) zero

namespace LanguageTotals

theorem merge_assoc (a b c : LanguageTotals) : (a.merge b).merge c = a.merge (b.merge c) := by
  simp only [merge, LineStats.merge_assoc, Nat.add_assoc]

theorem merge_comm (a b : LanguageTotals) : a.merge b = b.merge a := by
  simp only [merge, LineStats.merge_comm a.stats, Nat.add_comm a.files]

theorem merge_right_comm (a b c : LanguageTotals) :
    (a.merge b).merge c = (a.merge c).merge b := by
  rw [merge_assoc, merge_comm b, ← merge_assoc]

end LanguageTotals

/-! ## Totals -/

namespace Totals

/-- Totals to which one thing after the other is added. -/
def addAll (totals : Totals) (shares : List (String × LanguageTotals)) : Totals :=
  shares.foldl (fun totals share => totals.add share.1 share.2) totals

/-- Merging adds what the other totals have, language by language. -/
theorem merge_eq_addAll (first second : Totals) :
    first.merge second = first.addAll second.entries := by
  rw [merge, Table.mergeWith, addAll]
  congr 1
  funext totals share
  rw [add]
  congr 1
  funext found
  cases found <;> rfl

theorem addAll_append (totals : Totals) (first second : List (String × LanguageTotals)) :
    totals.addAll (first ++ second) = (totals.addAll first).addAll second :=
  List.foldl_append

theorem addAll_of_perm {totals : Totals} (h : totals.IsSorted)
    {first second : List (String × LanguageTotals)} (hperm : first.Perm second) :
    totals.addAll first = totals.addAll second := by
  refine Table.changeAll_of_perm Prod.fst _ h hperm fun a b found => ?_
  cases found with
  | none => exact LanguageTotals.merge_comm a.2 b.2
  | some found => exact LanguageTotals.merge_right_comm found a.2 b.2

end Totals

/-! ## Directories -/

/-- What a file adds to the totals of a role, or to those of all lines. -/
def FileCount.share? (count : FileCount) : Option CodeRole → Option (String × LanguageTotals)
  | none => some (count.language, .ofFile count.stats)
  | some role =>
    ((count.roles.get role).filter fun stats => !stats.isEmpty).map fun stats =>
      (count.language, .ofFile stats)

namespace DirectoryStats

/-- The totals of a directory with one file after the other recorded in it. -/
def recordAll (directory : DirectoryStats) (counts : List FileCount) : DirectoryStats :=
  counts.foldl record directory

/-- Recording in what is found there already. -/
theorem foldl_record_some (counts : List FileCount) (directory : DirectoryStats) :
    counts.foldl (fun found count => some ((found.getD .empty).record count)) (some directory) =
      some (directory.recordAll counts) := by
  induction counts generalizing directory with
  | nil => rfl
  | cons count rest ih => exact ih (directory.record count)

/-- Totals are the same if they are for each role and for all lines. -/
theorem ext_ofRole {first second : DirectoryStats}
    (h : ∀ role, first.ofRole role = second.ofRole role) : first = second := by
  obtain ⟨languages, roles⟩ := first
  obtain ⟨languages', roles'⟩ := second
  rw [mk.injEq]
  exact ⟨h none, PerRole.ext_get fun role => h (some role)⟩

theorem isSorted_ofRole_empty (role : Option CodeRole) : (empty.ofRole role).IsSorted := by
  rcases role with _ | _ | _ <;> exact Table.isSorted_empty

theorem ofRole_record (directory : DirectoryStats) (count : FileCount) (role : Option CodeRole) :
    (directory.record count).ofRole role =
      (directory.ofRole role).addAll (count.share? role).toList := by
  cases role with
  | none => rfl
  | some role =>
      simp only [ofRole, record, PerRole.get_zipWith, FileCount.share?]
      cases count.roles.get role with
      | none => rfl
      | some stats => cases hempty : stats.isEmpty <;> simp [Option.filter, hempty, Totals.addAll]

/-- Recording files adds their shares, to the totals of each role and to those of all lines. -/
theorem ofRole_recordAll (directory : DirectoryStats) (counts : List FileCount)
    (role : Option CodeRole) :
    (directory.recordAll counts).ofRole role =
      (directory.ofRole role).addAll (counts.filterMap (·.share? role)) := by
  induction counts generalizing directory with
  | nil => rfl
  | cons count rest ih =>
      rw [recordAll, List.foldl_cons, ← recordAll, ih, ofRole_record, ← Totals.addAll_append]
      cases hshare : count.share? role <;> simp [hshare]

theorem recordAll_of_perm {directory : DirectoryStats}
    (h : ∀ role, (directory.ofRole role).IsSorted) {first second : List FileCount}
    (hperm : first.Perm second) : directory.recordAll first = directory.recordAll second := by
  refine ext_ofRole fun role => ?_
  rw [ofRole_recordAll, ofRole_recordAll]
  exact Totals.addAll_of_perm (h role) (hperm.filterMap _)

end DirectoryStats

namespace Directories

/-- The totals of files that were recorded one after the other, each in a directory. -/
def ofRecords (records : List (Path × FileCount)) : Directories :=
  records.foldl (fun directories entry => directories.record entry.1 entry.2) .empty

theorem ofRecords_concat (records : List (Path × FileCount)) (path : Path) (count : FileCount) :
    ofRecords (records ++ [(path, count)]) = (ofRecords records).record path count := by
  rw [ofRecords, List.foldl_concat, ofRecords]

/-- The files that were recorded in a directory. -/
def filesIn (path : Path) (records : List (Path × FileCount)) : List FileCount :=
  (records.filter (·.1 = path)).map Prod.snd

theorem isSorted_ofRecords (records : List (Path × FileCount)) : (ofRecords records).IsSorted :=
  Table.isSorted_empty.changeAll Prod.fst _ records

/-- A directory is in the totals with the files that were recorded in it, if there are any. -/
theorem get?_ofRecords (records : List (Path × FileCount)) (path : Path) :
    (ofRecords records).get? path =
      if filesIn path records = [] then none
      else some (DirectoryStats.empty.recordAll (filesIn path records)) := by
  have hget : (ofRecords records).get? path =
      (filesIn path records).foldl
        (fun found count => some ((found.getD .empty).record count)) none := by
    rw [filesIn, List.foldl_map]
    exact Table.get?_changeAll Prod.fst
      (fun entry found => (found.getD DirectoryStats.empty).record entry.2)
      Table.isSorted_empty records path
  rw [hget]
  cases filesIn path records with
  | nil => rfl
  | cons count rest => exact DirectoryStats.foldl_record_some rest (.record .empty count)

/-- The totals do not depend on the order of recording. -/
theorem ofRecords_of_perm {first second : List (Path × FileCount)} (h : first.Perm second) :
    ofRecords first = ofRecords second := by
  refine (isSorted_ofRecords first).ext (isSorted_ofRecords second) fun path => ?_
  have hfiles : (filesIn path first).Perm (filesIn path second) := (h.filter _).map _
  have hnone : filesIn path first = [] ↔ filesIn path second = [] := by
    rw [← List.length_eq_zero_iff, hfiles.length_eq, List.length_eq_zero_iff]
  rw [get?_ofRecords, get?_ofRecords,
    DirectoryStats.recordAll_of_perm DirectoryStats.isSorted_ofRole_empty hfiles]
  simp only [hnone]

/-- The totals of the languages are those of each directory, added one after the other. -/
theorem totalsByLanguage_eq_addAll (directories : Directories) (role : Option CodeRole) :
    directories.totalsByLanguage role =
      Totals.addAll .empty
        (directories.values.flatMap fun directory => (directory.ofRole role).entries) := by
  rw [Totals.addAll, List.foldl_flatMap, totalsByLanguage]
  simp only [Totals.merge_eq_addAll, Totals.addAll]

end Directories

end LineCensus
