/-
# Totals

How many files and lines there are, per language, per directory and over all. A
directory keeps its totals twice: for all lines of a language, and for the lines of
either role. The second are not just a part of the first, since a file in which a role
has no lines is no file of that role.

Recording counts one by one and merging totals come to the same.
-/

import LineCensus.Census.Table
import LineCensus.Count

namespace LineCensus

/-- The number of files in a language, and the statistics of their lines. -/
structure LanguageTotals where
  files : Nat
  stats : LineStats
deriving DecidableEq, Repr

namespace LanguageTotals

def ofFile (stats : LineStats) : LanguageTotals := ⟨1, stats⟩

def merge (a b : LanguageTotals) : LanguageTotals :=
  ⟨a.files + b.files, a.stats.merge b.stats⟩

end LanguageTotals

/-- Totals by the label of the language. -/
abbrev Totals := Table String LanguageTotals

namespace Totals

def add (totals : Totals) (language : String) (more : LanguageTotals) : Totals :=
  totals.change language fun
    | some found => found.merge more
    | none => more

def merge (first second : Totals) : Totals :=
  first.mergeWith LanguageTotals.merge second

/-- The statistics of all languages together. -/
def stats (totals : Totals) : LineStats :=
  LineStats.sum (totals.values.map (·.stats))

end Totals

/-- The totals of a directory, its subdirectories left out. -/
structure DirectoryStats where
  languages : Totals
  roles : PerRole Totals
deriving DecidableEq

namespace DirectoryStats

def empty : DirectoryStats := ⟨.empty, .const .empty⟩

/-- The totals of a directory with one more file in it. -/
def record (directory : DirectoryStats) (count : FileCount) : DirectoryStats where
  languages := directory.languages.add count.language (.ofFile count.stats)
  roles := directory.roles.zipWith
    (fun totals stats? => match stats? with
      | some stats => if stats.isEmpty then totals else totals.add count.language (.ofFile stats)
      | none => totals)
    count.roles

/-- The totals of two directories together. -/
def merge (first second : DirectoryStats) : DirectoryStats where
  languages := first.languages.merge second.languages
  roles := first.roles.zipWith Totals.merge second.roles

/-- The totals of the lines of a role, or of all lines. -/
def ofRole (directory : DirectoryStats) : Option CodeRole → Totals
  | none => directory.languages
  | some role => directory.roles.get role

end DirectoryStats

/-- Paths are ordered by their text, which is also the order of reports. -/
instance : LT Path := ⟨fun a b => a.toString < b.toString⟩

instance (a b : Path) : Decidable (a < b) :=
  inferInstanceAs (Decidable (a.toString < b.toString))

abbrev Directories := Table Path DirectoryStats

namespace Directories

/-- The totals with one more file in a directory. -/
def record (directories : Directories) (directory : Path) (count : FileCount) : Directories :=
  directories.change directory fun found => (found.getD .empty).record count

/-- The totals with those of one directory added to another one. -/
def mergeInto (directories : Directories) (into source : Path) : Directories :=
  let added := (directories.get? source).getD .empty
  directories.change into fun found => (found.getD .empty).merge added

/-- The totals of all directories by language, for the lines of a role or for all lines. -/
def totalsByLanguage (directories : Directories) (role : Option CodeRole) : Totals :=
  directories.values.foldl (fun totals directory => totals.merge (directory.ofRole role)) .empty

def grandTotal (directories : Directories) : LineStats :=
  (directories.totalsByLanguage none).stats

end Directories

/-- The outcome of a scan. The counters are kept beside the totals, because a scan also counts
files that leave no trace in them. -/
structure ScanReport where
  /-- The file or directory that was scanned. -/
  root : Path
  directories : Directories
  filesProcessed : Int
  linesProcessed : Int
  errorCount : Int
deriving DecidableEq

namespace ScanReport

/-- The outcome of a scan before anything is found. -/
def empty (root : Path) : ScanReport := ⟨root, .empty, 0, 0, 0⟩

def grandTotal (report : ScanReport) : LineStats :=
  report.directories.grandTotal

end ScanReport

end LineCensus
