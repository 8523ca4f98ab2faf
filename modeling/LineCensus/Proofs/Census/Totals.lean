/-
# What recording a file adds

Recording a file adds its statistics to those of its language, and those of its lines of
either role to those of the role. A directory in which the roles add up to the
languages is still such a directory afterwards, and the report as a whole grows by one
file and by the lines of that file.

A file whose lines have but one role leaves the other role untouched. This loses
nothing, since statistics in which no line is code, comment or blank are those of no
line at all.
-/

import LineCensus.Census.Totals
import LineCensus.Proofs.Census.Table
import LineCensus.Proofs.Count.Conservation

namespace LineCensus

namespace LineStats

theorem merge_merge_merge_comm (a b c d : LineStats) :
    (a.merge b).merge (c.merge d) = (a.merge c).merge (b.merge d) := by
  simp only [merge, mk.injEq]
  omega

theorem lines_foldl_merge (stats : LineStats) (all : List LineStats) :
    (all.foldl merge stats).lines = stats.lines + (all.map lines).sum := by
  induction all generalizing stats with
  | nil => simp
  | cons first rest ih =>
      rw [List.foldl_cons, ih, lines_merge, List.map_cons, List.sum_cons, Int.add_assoc]

theorem lines_sum (all : List LineStats) : (sum all).lines = (all.map lines).sum := by
  rw [sum, lines_foldl_merge]
  exact Int.zero_add _

end LineStats

namespace Totals

/-- The statistics of a language, those of no line if there are none. -/
def statsOf (totals : Totals) (language : String) : LineStats :=
  ((totals.get? language).map (·.stats)).getD .zero

/-- Adding to a language changes the statistics of that language and of no other. -/
theorem statsOf_add {totals : Totals} (h : totals.IsSorted) (language other : String)
    (more : LanguageTotals) :
    (totals.add language more).statsOf other =
      if language = other then (totals.statsOf other).merge more.stats
      else totals.statsOf other := by
  by_cases hsame : language = other
  · subst hsame
    rw [if_pos rfl, statsOf, add,
      Table.get?_change_of_sameKey h (Table.sameKey_string_iff.mpr rfl), statsOf]
    cases totals.get? language with
    | none => simp
    | some found => rfl
  · have hkey : ¬ Table.SameKey language other := fun hsame' =>
      hsame (Table.sameKey_string_iff.mp hsame')
    rw [if_neg hsame, statsOf, add, Table.get?_change_of_not_sameKey _ hkey, statsOf]

theorem isSorted_add {totals : Totals} (h : totals.IsSorted) (language : String)
    (more : LanguageTotals) : (totals.add language more).IsSorted :=
  h.change _ _

theorem total_add {measure : LanguageTotals → Int}
    (hmerge : ∀ a b : LanguageTotals, measure (a.merge b) = measure a + measure b)
    (totals : Totals) (language : String) (more : LanguageTotals) :
    (totals.add language more).total measure = totals.total measure + measure more :=
  Table.total_change language rfl (fun found => hmerge found more) totals

theorem total_merge {measure : LanguageTotals → Int}
    (hmerge : ∀ a b : LanguageTotals, measure (a.merge b) = measure a + measure b)
    (first second : Totals) :
    (first.merge second).total measure = first.total measure + second.total measure :=
  Table.total_mergeWith hmerge first second

/-- The lines of all languages together. -/
theorem lines_stats (totals : Totals) : totals.stats.lines = totals.total (·.stats.lines) := by
  rw [stats, LineStats.lines_sum, List.map_map]
  rfl

end Totals

namespace DirectoryStats

/-- Whether the lines of either role make up all lines, language by language. -/
def RolesAddUp (directory : DirectoryStats) : Prop :=
  ∀ language, directory.languages.statsOf language =
    ((directory.roles.get .mainline).statsOf language).merge
      ((directory.roles.get .test).statsOf language)

/-- The totals of a directory as recording makes them. -/
structure IsConsistent (directory : DirectoryStats) : Prop where
  languages_sorted : directory.languages.IsSorted
  roles_sorted : ∀ role, (directory.roles.get role).IsSorted
  rolesAddUp : directory.RolesAddUp

theorem IsConsistent.empty : IsConsistent empty where
  languages_sorted := Table.isSorted_empty
  roles_sorted role := by
    cases role <;> exact Table.isSorted_empty
  rolesAddUp _ := rfl

/-- The totals of a role after a file was recorded. A role without lines is left as it was. -/
theorem get_roles_record (directory : DirectoryStats) (count : FileCount) (role : CodeRole) :
    (directory.record count).roles.get role = directory.roles.get role ∧
        (count.bucket role).isEmpty = true ∨
      (directory.record count).roles.get role =
        (directory.roles.get role).add count.language (.ofFile (count.bucket role)) := by
  simp only [record, PerRole.get_zipWith, FileCount.bucket]
  cases count.roles.get role with
  | none => exact .inl ⟨rfl, rfl⟩
  | some stats =>
      by_cases hempty : stats.isEmpty = true
      · exact .inl ⟨by simp [hempty], hempty⟩
      · exact .inr (by simp [hempty])

/-- What recording adds to a role is what the file has in it, if it is nothing too. -/
theorem statsOf_get_roles_record {directory : DirectoryStats} (h : directory.IsConsistent)
    {count : FileCount} {role : CodeRole} (hcount : (count.bucket role).IsCount)
    (language : String) :
    ((directory.record count).roles.get role).statsOf language =
      if count.language = language then
        ((directory.roles.get role).statsOf language).merge (count.bucket role)
      else (directory.roles.get role).statsOf language := by
  rcases get_roles_record directory count role with ⟨hsame, hempty⟩ | hadded
  · rw [hsame, hcount.eq_zero_of_isEmpty hempty, LineStats.merge_zero]
    split <;> rfl
  · rw [hadded, Totals.statsOf_add (h.roles_sorted role)]
    rfl

/-- Recording a file keeps the roles adding up. -/
theorem IsConsistent.record {directory : DirectoryStats} (h : directory.IsConsistent)
    {count : FileCount} (hcount : ∀ role, (count.bucket role).IsCount) :
    (directory.record count).IsConsistent where
  languages_sorted := Totals.isSorted_add h.languages_sorted _ _
  roles_sorted role := by
    rcases get_roles_record directory count role with ⟨hsame, _⟩ | hadded
    · rw [hsame]
      exact h.roles_sorted role
    · rw [hadded]
      exact Totals.isSorted_add (h.roles_sorted role) _ _
  rolesAddUp language := by
    rw [statsOf_get_roles_record h (hcount .mainline), statsOf_get_roles_record h (hcount .test)]
    refine (Totals.statsOf_add h.languages_sorted _ _ _).trans ?_
    split
    · rw [h.rolesAddUp language, LineStats.merge_merge_merge_comm]
      rfl
    · exact h.rolesAddUp language

end DirectoryStats

namespace Directories

/-- The number of files that a directory has in all languages. -/
def fileTotal (directories : Directories) : Int :=
  directories.total fun directory => directory.languages.total fun totals => totals.files

/-- The number of lines that are described in all directories and languages. -/
def lineTotal (directories : Directories) : Int :=
  directories.total fun directory => directory.languages.total fun totals => totals.stats.lines

/-- A quantity of languages that adds up grows by that of the file, over all directories too. -/
theorem total_record {measure : LanguageTotals → Int}
    (hmerge : ∀ a b : LanguageTotals, measure (a.merge b) = measure a + measure b)
    (directories : Directories) (path : Path) (count : FileCount) :
    (directories.record path count).total (fun directory => directory.languages.total measure) =
      directories.total (fun directory => directory.languages.total measure) +
        measure (.ofFile count.stats) := by
  refine Table.total_change path ?_ (fun directory => ?_) directories
  · show (DirectoryStats.empty.languages.add _ _).total measure = _
    rw [Totals.total_add hmerge]
    exact Int.zero_add _
  · exact Totals.total_add hmerge _ _ _

theorem fileTotal_record (directories : Directories) (path : Path) (count : FileCount) :
    (directories.record path count).fileTotal = directories.fileTotal + 1 :=
  total_record (fun _ _ => Int.natCast_add _ _) directories path count

theorem lineTotal_record (directories : Directories) (path : Path) (count : FileCount) :
    (directories.record path count).lineTotal = directories.lineTotal + count.stats.lines :=
  total_record (fun _ _ => LineStats.lines_merge _ _) directories path count

/-- Merging the languages of all directories counts each line once. -/
theorem lines_grandTotal (directories : Directories) :
    directories.grandTotal.lines = directories.lineTotal := by
  have hfold : ∀ (all : List DirectoryStats) (totals : Totals),
      (all.foldl (fun totals directory => totals.merge (directory.ofRole none)) totals).total
          (·.stats.lines) =
        totals.total (·.stats.lines) +
          (all.map fun directory => directory.languages.total (·.stats.lines)).sum := by
    intro all
    induction all with
    | nil => intro totals; simp
    | cons directory rest ih =>
        intro totals
        have hmerge : (totals.merge (directory.ofRole none)).total (·.stats.lines) =
            totals.total (·.stats.lines) + directory.languages.total (·.stats.lines) :=
          Totals.total_merge (fun a b => LineStats.lines_merge a.stats b.stats) _ _
        rw [List.foldl_cons, ih, hmerge, List.map_cons, List.sum_cons, Int.add_assoc]
  rw [grandTotal, Totals.lines_stats, totalsByLanguage, hfold, Table.total_empty, Int.zero_add]
  rfl

theorem isConsistent_record {directories : Directories}
    (h : ∀ directory ∈ directories.values, directory.IsConsistent) (path : Path)
    {count : FileCount} (hcount : ∀ role, (count.bucket role).IsCount) :
    ∀ directory ∈ (directories.record path count).values, directory.IsConsistent :=
  Table.forall_values_change h (DirectoryStats.IsConsistent.empty.record hcount)
    fun _ hdirectory => hdirectory.record hcount

end Directories

end LineCensus
