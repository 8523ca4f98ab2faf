/-
# Reconciling statistics with the length of a file

The lines that a file's statistics describe have to be as many as the file has.
Reconciling makes them so: lines too many are taken out of the blank ones first and
declared an overlap beyond that, lines missing are taken to be blank. Code and
comment are never touched.

Statistics of nothing, and those of an empty file, are left as they are.
-/

import LineCensus.Line.Stats
import LineCensus.Text.Integer

namespace LineCensus

/-- What can be wrong with statistics that claim to describe `total` lines. -/
inductive Imbalance where
  /-- A counter is below zero. -/
  | negativeCounter (stats : LineStats)
  /-- The counters do not add up to the number of lines. -/
  | wrongSum (stats : LineStats) (total : Int)
deriving DecidableEq, Repr

namespace LineStats

/-- The four counters, named, in one line. -/
def describe (stats : LineStats) : String :=
  "LineStats(code=" ++ Text.integerText stats.code ++ ", comment=" ++
    Text.integerText stats.comment ++ ", blank=" ++ Text.integerText stats.blank ++
    ", overlap=" ++ Text.integerText stats.overlap ++ ")"

/-- Whether every counter is at least zero. -/
def isNonnegative (stats : LineStats) : Bool :=
  0 ≤ stats.code && 0 ≤ stats.comment && 0 ≤ stats.blank && 0 ≤ stats.overlap

/-- The first fault of statistics that claim to describe `total` lines. A negative counter is
reported before a wrong sum. -/
def imbalance? (stats : LineStats) (total : Int) : Option Imbalance :=
  if !stats.isNonnegative then some (.negativeCounter stats)
  else if stats.lines ≠ total then some (.wrongSum stats total)
  else none

/-- Statistics changed to describe `total` lines, whatever they described before. -/
def adjust (stats : LineStats) (total : Int) : LineStats :=
  if total < stats.lines then
    let excess := stats.lines - total
    let fromBlank := min stats.blank excess
    { stats with blank := stats.blank - fromBlank, overlap := stats.overlap + (excess - fromBlank) }
  else { stats with blank := stats.blank + (total - stats.lines) }

/-- Statistics that describe `total` lines, or what is wrong with them. -/
def reconcile (stats : LineStats) (total : Int) : Except Imbalance LineStats :=
  if total = 0 ∨ stats.isEmpty then .ok stats
  else
    let adjusted := stats.adjust total
    match adjusted.imbalance? total with
    | some fault => .error fault
    | none => .ok adjusted

end LineStats

/-- The fault in words. -/
def Imbalance.message : Imbalance → String
  | negativeCounter stats => "negative line counter in " ++ stats.describe
  | wrongSum stats total =>
    "line sum " ++ Text.integerText stats.lines ++ " does not match total " ++
      Text.integerText total ++ " for " ++ stats.describe

end LineCensus
