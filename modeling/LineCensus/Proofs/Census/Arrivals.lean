/-
# Totals in the order of arrival

Whoever keeps directories, and the languages in them, in the order in which they first came
up, and sorts them no sooner than they are printed, prints the same report: what is kept
sorted all along is at each moment what sorting makes of what is kept as it came.

The totals of the languages over all directories are gathered in the order of the
directories, so there they come up in another order. Sorted they are the same again, since
adding is the same in any order. What is printed therefore does not depend on the order in
which files are recorded, kept sorted or not.
-/

import LineCensus.Proofs.Census.Recording
import LineCensus.Report.Analysis
import Mathlib.Data.List.Perm.Basic

namespace LineCensus

/-- Values by key, the keys in the order in which they first came up. -/
structure Arrivals (κ α : Type) where
  entries : List (κ × α)
  distinct : (entries.map Prod.fst).Nodup

namespace Arrivals

variable {κ α β : Type}

theorem ext_entries {first second : Arrivals κ α} (h : first.entries = second.entries) :
    first = second := by
  cases first
  cases second
  cases h
  rfl

def empty : Arrivals κ α := ⟨[], List.nodup_nil⟩

def values (arrivals : Arrivals κ α) : List α :=
  arrivals.entries.map Prod.snd

/-- The values, each changed by itself. -/
def map (change : α → β) (arrivals : Arrivals κ α) : Arrivals κ β where
  entries := arrivals.entries.map fun entry => (entry.1, change entry.2)
  distinct := by
    rw [List.map_map]
    exact arrivals.distinct

/-! ## Changes in place -/

section

variable [DecidableEq κ]

/-- Entries in which the value of a key is changed where it stands, or made from nothing at the
end. -/
def changeIn (key : κ) (rule : Option α → α) : List (κ × α) → List (κ × α)
  | [] => [(key, rule none)]
  | (k, value) :: rest =>
    if k = key then (k, rule (some value)) :: rest else (k, value) :: changeIn key rule rest

theorem keys_changeIn (key : κ) (rule : Option α → α) (entries : List (κ × α)) :
    (changeIn key rule entries).map Prod.fst =
      if key ∈ entries.map Prod.fst then entries.map Prod.fst
      else entries.map Prod.fst ++ [key] := by
  induction entries with
  | nil => rfl
  | cons entry rest ih =>
      obtain ⟨k, value⟩ := entry
      by_cases hk : k = key
      · simp [changeIn, hk]
      · have hmem : key ∈ ((k, value) :: rest).map Prod.fst ↔ key ∈ rest.map Prod.fst := by
          simp [Ne.symm hk]
        rw [changeIn, if_neg hk, List.map_cons, ih, if_congr hmem rfl rfl]
        split <;> rfl

theorem nodup_changeIn {entries : List (κ × α)} (h : (entries.map Prod.fst).Nodup) (key : κ)
    (rule : Option α → α) : ((changeIn key rule entries).map Prod.fst).Nodup := by
  rw [keys_changeIn]
  split
  · exact h
  · next hnew =>
      rw [← List.concat_eq_append]
      exact h.concat hnew

theorem lookup_changeIn (key other : κ) (rule : Option α → α) (entries : List (κ × α)) :
    (changeIn key rule entries).lookup other =
      if key = other then some (rule (entries.lookup other)) else entries.lookup other := by
  induction entries with
  | nil => simp only [changeIn, List.lookup_cons, List.lookup_nil]; grind
  | cons entry rest ih =>
      obtain ⟨k, value⟩ := entry
      simp only [changeIn, List.lookup_cons]
      by_cases hk : k = key
      · subst hk
        simp only [if_true, List.lookup_cons]
        grind
      · simp only [if_neg hk, List.lookup_cons, ih]
        grind

/-- The value of a key is changed where it stands, or made from nothing at the end. -/
def change (arrivals : Arrivals κ α) (key : κ) (rule : Option α → α) : Arrivals κ α :=
  ⟨changeIn key rule arrivals.entries, nodup_changeIn arrivals.distinct key rule⟩

theorem map_change (arrivals : Arrivals κ α) (key : κ) {change : α → β} {rule : Option α → α}
    (rule' : Option β → β) (h : ∀ found, change (rule found) = rule' (found.map change)) :
    (arrivals.change key rule).map change = (arrivals.map change).change key rule' := by
  obtain ⟨entries, distinct⟩ := arrivals
  refine ext_entries ?_
  simp only [map, Arrivals.change]
  clear distinct
  induction entries with
  | nil => simp [changeIn, h]
  | cons entry rest ih =>
      obtain ⟨k, value⟩ := entry
      by_cases hk : k = key
      · simp [changeIn, hk, h]
      · simp [changeIn, hk, ih]

end

/-! ## Sorting -/

variable [LT κ] [DecidableLT κ]

/-- The table that sorting makes of the entries. -/
def sorted (arrivals : Arrivals κ α) : Table κ α :=
  ⟨arrivals.entries.mergeSort fun a b => !decide (b.1 < a.1)⟩

@[simp]
theorem sorted_empty : (empty : Arrivals κ α).sorted = .empty :=
  congrArg Table.mk List.mergeSort_nil

theorem sorted_perm (arrivals : Arrivals κ α) : arrivals.sorted.entries.Perm arrivals.entries :=
  List.mergeSort_perm _ _

theorem isSorted_sorted [SeparatingOrder κ] (arrivals : Arrivals κ α) :
    arrivals.sorted.IsSorted := by
  have hascend : arrivals.sorted.entries.Pairwise fun a b => ¬ b.1 < a.1 := by
    have htrans : ∀ a b c : κ × α, (!decide (b.1 < a.1)) = true → (!decide (c.1 < b.1)) = true →
        (!decide (c.1 < a.1)) = true := by
      simp only [Bool.not_eq_true', decide_eq_false_iff_not]
      exact fun a b c hab hbc => KeyOrder.not_lt_trans hbc hab
    have htotal : ∀ a b : κ × α, (!decide (b.1 < a.1) || !decide (a.1 < b.1)) = true := by
      intro a b
      by_cases hab : a.1 < b.1 <;> simp [hab, KeyOrder.asymm]
    exact (List.pairwise_mergeSort htrans htotal arrivals.entries).imp (by simp)
  have hdistinct : arrivals.sorted.entries.Pairwise fun a b => a.1 ≠ b.1 :=
    List.pairwise_map.mp ((arrivals.sorted_perm.map Prod.fst).nodup_iff.mpr arrivals.distinct)
  refine hascend.imp₂ (fun a b hle hne => ?_) hdistinct
  exact Classical.byContradiction fun hlt => hne (Table.sameKey_iff.mp ⟨hlt, hle⟩)

variable [SeparatingOrder κ] [DecidableEq κ]

/-- Sorting leaves under each key what is there. -/
theorem get?_sorted (arrivals : Arrivals κ α) (key : κ) :
    arrivals.sorted.get? key = arrivals.entries.lookup key := by
  -- looking up does not ask for ascending keys, so the entries as they came are a table too
  rw [← Table.get?_eq_lookup ⟨arrivals.entries⟩ key]
  refine Option.ext fun value => ?_
  rw [Table.get?_eq_some_iff arrivals.isSorted_sorted.nodup_keys, arrivals.sorted_perm.mem_iff,
    Table.get?_eq_some_iff arrivals.distinct]

/-- A change before sorting is one after it. -/
theorem sorted_change (arrivals : Arrivals κ α) (key : κ) (rule : Option α → α) :
    (arrivals.change key rule).sorted = arrivals.sorted.change key rule := by
  refine (isSorted_sorted _).ext (arrivals.isSorted_sorted.change key rule) fun other => ?_
  rw [get?_sorted, Table.get?_change arrivals.isSorted_sorted, get?_sorted, change,
    lookup_changeIn]

end Arrivals

/-! ## Totals -/

/-- Totals of languages in the order in which the languages came up. -/
abbrev TotalsArrivals := Arrivals String LanguageTotals

namespace TotalsArrivals

def add (totals : TotalsArrivals) (language : String) (more : LanguageTotals) : TotalsArrivals :=
  totals.change language fun
    | some found => found.merge more
    | none => more

def addAll (totals : TotalsArrivals) (shares : List (String × LanguageTotals)) :
    TotalsArrivals :=
  shares.foldl (fun totals share => totals.add share.1 share.2) totals

theorem sorted_addAll (totals : TotalsArrivals) (shares : List (String × LanguageTotals)) :
    (totals.addAll shares).sorted = Totals.addAll totals.sorted shares := by
  induction shares generalizing totals with
  | nil => rfl
  | cons share rest ih =>
      rw [addAll, List.foldl_cons, ← addAll, ih, add, Arrivals.sorted_change]
      rfl

end TotalsArrivals

/-- The totals of a directory, the languages in the order in which they came up. -/
structure DirectoryArrivals where
  languages : TotalsArrivals
  roles : PerRole TotalsArrivals

namespace DirectoryArrivals

def empty : DirectoryArrivals := ⟨.empty, .const .empty⟩

/-- The totals of a directory with one more file in it. -/
def record (directory : DirectoryArrivals) (count : FileCount) : DirectoryArrivals where
  languages := directory.languages.add count.language (.ofFile count.stats)
  roles := directory.roles.zipWith
    (fun totals stats? => match stats? with
      | some stats => if stats.isEmpty then totals else totals.add count.language (.ofFile stats)
      | none => totals)
    count.roles

/-- The totals of the lines of a role, or of all lines. -/
def ofRole (directory : DirectoryArrivals) : Option CodeRole → TotalsArrivals
  | none => directory.languages
  | some role => directory.roles.get role

def sorted (directory : DirectoryArrivals) : DirectoryStats :=
  ⟨directory.languages.sorted, directory.roles.map Arrivals.sorted⟩

theorem sorted_empty : empty.sorted = .empty := by
  simp [empty, sorted, DirectoryStats.empty, PerRole.const, PerRole.map]

theorem ofRole_sorted (directory : DirectoryArrivals) (role : Option CodeRole) :
    directory.sorted.ofRole role = (directory.ofRole role).sorted := by
  cases role with
  | none => rfl
  | some role => exact PerRole.get_map _ _ _

theorem ofRole_record (directory : DirectoryArrivals) (count : FileCount)
    (role : Option CodeRole) :
    (directory.record count).ofRole role =
      (directory.ofRole role).addAll (count.share? role).toList := by
  cases role with
  | none => rfl
  | some role =>
      simp only [ofRole, record, PerRole.get_zipWith, FileCount.share?]
      cases count.roles.get role with
      | none => rfl
      | some stats =>
          cases hempty : stats.isEmpty <;> simp [Option.filter, hempty, TotalsArrivals.addAll]

theorem sorted_record (directory : DirectoryArrivals) (count : FileCount) :
    (directory.record count).sorted = directory.sorted.record count := by
  refine DirectoryStats.ext_ofRole fun role => ?_
  rw [ofRole_sorted, ofRole_record, TotalsArrivals.sorted_addAll, DirectoryStats.ofRole_record,
    ofRole_sorted]

end DirectoryArrivals

/-! ## Directories -/

/-- The totals of directories in the order in which the directories came up. -/
abbrev CensusArrivals := Arrivals Path DirectoryArrivals

namespace CensusArrivals

/-- The totals with one more file in a directory. -/
def record (directories : CensusArrivals) (path : Path) (count : FileCount) : CensusArrivals :=
  directories.change path fun found => (found.getD .empty).record count

/-- The totals of files that were recorded one after the other, each in a directory. -/
def ofRecords (records : List (Path × FileCount)) : CensusArrivals :=
  records.foldl (fun directories entry => directories.record entry.1 entry.2) .empty

/-- The totals with directories and languages sorted. -/
def sortedThroughout (directories : CensusArrivals) : Directories :=
  (directories.map DirectoryArrivals.sorted).sorted

/-- The totals of all directories by language, for the lines of a role or for all lines. -/
def totalsByLanguage (directories : CensusArrivals) (role : Option CodeRole) : TotalsArrivals :=
  directories.values.foldl
    (fun totals directory => totals.addAll (directory.ofRole role).entries) .empty

def grandTotal (directories : CensusArrivals) : LineStats :=
  LineStats.sum ((directories.totalsByLanguage none).values.map (·.stats))

theorem sortedThroughout_record (directories : CensusArrivals) (path : Path)
    (count : FileCount) :
    (directories.record path count).sortedThroughout =
      directories.sortedThroughout.record path count := by
  have hrule : ∀ found : Option DirectoryArrivals,
      ((found.getD .empty).record count).sorted =
        ((found.map DirectoryArrivals.sorted).getD .empty).record count := by
    intro found
    rw [DirectoryArrivals.sorted_record]
    cases found with
    | none => exact congrArg (DirectoryStats.record · count) DirectoryArrivals.sorted_empty
    | some found => rfl
  rw [sortedThroughout, record,
    Arrivals.map_change _ _ (fun found => (found.getD DirectoryStats.empty).record count) hrule,
    Arrivals.sorted_change]
  rfl

/-- Recording in the order of arrival and sorting comes to the same as recording sorted. -/
theorem sortedThroughout_ofRecords (records : List (Path × FileCount)) :
    (ofRecords records).sortedThroughout = .ofRecords records := by
  induction records using List.reverseRecOn with
  | nil => exact Arrivals.sorted_empty
  | append_singleton records entry ih =>
      rw [Directories.ofRecords_concat, ← ih, ← sortedThroughout_record, ofRecords,
        List.foldl_concat, ofRecords]

theorem values_sortedThroughout_perm (directories : CensusArrivals) :
    directories.sortedThroughout.values.Perm
      (directories.values.map DirectoryArrivals.sorted) := by
  have hvalues : directories.values.map DirectoryArrivals.sorted =
      (directories.map DirectoryArrivals.sorted).entries.map Prod.snd := by
    rw [Arrivals.values, Arrivals.map, List.map_map, List.map_map]
    rfl
  rw [hvalues]
  exact (Arrivals.sorted_perm _).map Prod.snd

/-- The languages come up in another order when the directories are gone through as they came,
but once sorted, with the same totals. -/
theorem sorted_totalsByLanguage (directories : CensusArrivals) (role : Option CodeRole) :
    (directories.totalsByLanguage role).sorted =
      directories.sortedThroughout.totalsByLanguage role := by
  -- what is added up: the totals of each directory, as they came and sorted
  have heach : ∀ directory : DirectoryArrivals,
      (directory.ofRole role).entries.Perm (directory.sorted.ofRole role).entries := by
    intro directory
    rw [DirectoryArrivals.ofRole_sorted]
    exact (Arrivals.sorted_perm _).symm
  have hperm : (directories.values.flatMap fun directory => (directory.ofRole role).entries).Perm
      (directories.sortedThroughout.values.flatMap fun directory =>
        (directory.ofRole role).entries) := by
    have hall := directories.values_sortedThroughout_perm.symm.flatMap_right
      fun directory => (directory.ofRole role).entries
    rw [List.flatMap_map] at hall
    exact (List.Perm.flatMap_left _ fun directory _ => heach directory).trans hall
  rw [Directories.totalsByLanguage_eq_addAll, ← Totals.addAll_of_perm Table.isSorted_empty hperm,
    ← Arrivals.sorted_empty, ← TotalsArrivals.sorted_addAll, TotalsArrivals.addAll,
    List.foldl_flatMap]
  rfl

theorem grandTotal_eq (directories : CensusArrivals) :
    directories.grandTotal = directories.sortedThroughout.grandTotal := by
  rw [Directories.grandTotal, ← sorted_totalsByLanguage]
  exact LineStats.sum_of_perm (((Arrivals.sorted_perm _).map Prod.snd).map _).symm

/-- Sorting what is printed comes to the same as keeping it sorted. A report on files that were
recorded as they came has the rows, the totals of the languages and the grand total of the report on
totals that were kept sorted. -/
theorem ofRecords_shows (records : List (Path × FileCount)) :
    (ofRecords records).sortedThroughout = .ofRecords records ∧
      (∀ role, ((ofRecords records).totalsByLanguage role).sorted =
        (Directories.ofRecords records).totalsByLanguage role) ∧
      (ofRecords records).grandTotal = (Directories.ofRecords records).grandTotal := by
  have hsorted := sortedThroughout_ofRecords records
  refine ⟨hsorted, fun role => ?_, ?_⟩
  · rw [sorted_totalsByLanguage, hsorted]
  · rw [grandTotal_eq, hsorted]

end CensusArrivals

/-! ## The report -/

namespace Report

/-- **The report does not depend on the order of recording.** Files that were recorded in another
order make for the same text, to the last character, and for the same totals of the languages, for
each role and for all lines, and the same grand total. It makes no difference whether the report is
on totals that were kept sorted or on such as are kept in the order of arrival and sorted when they
are shown. -/
theorem analysis_ofRecords_of_perm {first second : List (Path × FileCount)}
    (h : first.Perm second) (root current : Path) (files lines errors : Int)
    (roleBreakdown : Bool) :
    let report records := ScanReport.mk root (.ofRecords records) files lines errors
    (analysis (report first) current roleBreakdown =
        analysis (report second) current roleBreakdown ∧
      (∀ role, (report first).directories.totalsByLanguage role =
        (report second).directories.totalsByLanguage role) ∧
      (report first).grandTotal = (report second).grandTotal) ∧
    ∀ records,
      let arrivals := CensusArrivals.ofRecords records
      arrivals.sortedThroughout = (report records).directories ∧
      (∀ role, (arrivals.totalsByLanguage role).sorted =
        (report records).directories.totalsByLanguage role) ∧
      arrivals.grandTotal = (report records).grandTotal := by
  intro report
  have hreport : report first = report second := by
    simp only [report, Directories.ofRecords_of_perm h]
  rw [hreport]
  exact ⟨⟨rfl, fun _ => rfl, rfl⟩, CensusArrivals.ofRecords_shows⟩

/-- Two languages in one directory and tests in another, recorded forwards and backwards. -/
theorem analysis_ofRecords_of_perm_backwards :
    let src := Path.ofString "/repo/src"
    let tests := Path.ofString "/repo/tests"
    let rust : FileCount := ⟨src, "Rust", 4, some ⟨3, 1, 0, 0⟩, none⟩
    let python : FileCount := ⟨src, "Python", 7, some ⟨4, 2, 1, 0⟩, none⟩
    let checks : FileCount := ⟨tests, "Rust", 3, some ⟨1, 0, 0, 0⟩, some ⟨2, 0, 0, 0⟩⟩
    let found := [(src, rust), (src, python), (tests, checks)]
    let report records := ScanReport.mk (.ofString "/repo") (.ofRecords records) 3 14 0
    found.Perm found.reverse ∧
      analysis (report found) (.ofString "/repo") true =
          analysis (report found.reverse) (.ofString "/repo") true ∧
        (∀ role, (report found).directories.totalsByLanguage role =
          (report found.reverse).directories.totalsByLanguage role) ∧
        (report found).grandTotal = (report found.reverse).grandTotal :=
  ⟨(List.reverse_perm _).symm,
    (analysis_ofRecords_of_perm (List.reverse_perm _).symm (.ofString "/repo") (.ofString "/repo")
      3 14 0 true).1⟩

end Report

end LineCensus
