/-
# The report on a scan

A table with a row for each language in each directory, the totals of the languages,
the same once more for either role if that is asked for, and a summary of what was
processed. Rows are in the order of the directories' paths and of the languages' labels.
-/

import LineCensus.Report.Layout

namespace LineCensus.Report

open Text

def directoryRows (current : Path) (role : Option CodeRole) (path : Path)
    (directory : DirectoryStats) : List String :=
  let label := truncateStart (displayDirectory path current) directoryWidth
  (directory.ofRole role).entries.map fun (language, totals) =>
    statsLine label language totals.files totals.stats

/-- The rows of all directories, for the lines of a role or for all lines. -/
def tableRows (directories : Directories) (current : Path) (role : Option CodeRole) :
    List String :=
  directories.entries.flatMap fun (path, directory) => directoryRows current role path directory

/-- The rows of the languages. -/
def totalsRows (totals : Totals) : List String :=
  totals.entries.map fun (language, total) => statsLine "" language total.files total.stats

/-- The part of the report on a role. -/
def roleSection (directories : Directories) (current : Path) (role : CodeRole) : List String :=
  let rows := tableRows directories current (some role)
  let title := ["", "Role breakdown (" ++ role.label ++ ")", rule, headerLine, rule]
  if rows.isEmpty then title ++ ["No " ++ Text.lowerName role.label ++ " data collected."]
  else
    title ++ rows ++ [rule, "Totals by language (" ++ role.label ++ "):"] ++
      totalsRows (directories.totalsByLanguage (some role))

/-- A line of the summary with a number of lines and its share of all lines. -/
def shareLine (title : String) (value total : Int) : String :=
  title ++ integerText value ++ " (" ++ (percentage value total).fixed 1 ++ "%)"

/-- The summary, if there is anything to sum up. -/
def summary (report : ScanReport) : List String :=
  if 0 < report.filesProcessed ∨ 0 < report.linesProcessed then
    let grand := report.grandTotal
    let total := report.linesProcessed
    ["", "Overall Summary:",
      "Total files processed: " ++ integerText report.filesProcessed,
      "Total lines processed: " ++ integerText total,
      shareLine "Code lines:     " grand.code total,
      shareLine "Comment lines:  " grand.comment total,
      shareLine "Mixed lines:    " grand.overlap total,
      shareLine "Blank lines:    " grand.blank total] ++
      if 0 < report.errorCount then ["", "Warning: " ++ integerText report.errorCount] else []
  else []

/-- The lines of the report, as somebody in `current` sees them. -/
def analysisLines (report : ScanReport) (current : Path) (roleBreakdown : Bool) : List String :=
  ["", "", "Detailed source code analysis:", rule, headerLine, rule] ++
    tableRows report.directories current none ++
    [rule, "Totals by language:"] ++
    totalsRows (report.directories.totalsByLanguage none) ++
    (if roleBreakdown then CodeRole.all.flatMap (roleSection report.directories current) else []) ++
    summary report

/-- The text of the report. -/
def analysis (report : ScanReport) (current : Path) (roleBreakdown : Bool) : String :=
  String.intercalate "\n" (analysisLines report current roleBreakdown) ++ "\n"

/-- What is told about a single file. -/
def fileDetails (path : Path) (stats : LineStats) : String :=
  "File: " ++ path.toString ++ "\n  Code lines: " ++ integerText stats.code ++
    "\n  Comment lines: " ++ integerText stats.comment ++
    "\n  Blank lines: " ++ integerText stats.blank ++
    "\n  Mixed code/comment lines: " ++ integerText stats.overlap ++ "\n"

end LineCensus.Report
