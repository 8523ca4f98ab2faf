/-
# Line statistics

The counters of a set of lines. A line that holds both code and comment raises
three of them: code, comment and the overlap. The overlap is what has to be taken
off again to get the number of lines.

The counters are integers and not natural numbers. Counting never makes one
negative, but statistics are also merged and reconciled as plain values, and there
a negative counter is a fault to be reported and not one to be rounded away.
-/

import LineCensus.Line.Kind

namespace LineCensus

/-- Code, comment and blank lines, and the lines that are both code and comment. -/
structure LineStats where
  code : Int
  comment : Int
  blank : Int
  overlap : Int
deriving DecidableEq, Repr

namespace LineStats

def zero : LineStats := ⟨0, 0, 0, 0⟩

/-- The number of lines that the counters describe. -/
def lines (stats : LineStats) : Int :=
  stats.code + stats.comment + stats.blank - stats.overlap

/-- Counter by counter, the sum of two statistics. -/
def merge (a b : LineStats) : LineStats :=
  ⟨a.code + b.code, a.comment + b.comment, a.blank + b.blank, a.overlap + b.overlap⟩

def ofKind (kind : LineKind) : LineStats :=
  let one (present : Bool) : Int := if present then 1 else 0
  ⟨one kind.code, one kind.comment, one kind.blank, one (kind.code && kind.comment)⟩

/-- Statistics with one more line in them. -/
def addKind (stats : LineStats) (kind : LineKind) : LineStats :=
  stats.merge (ofKind kind)

/-- The statistics of a sequence of lines. -/
def ofKinds (kinds : List LineKind) : LineStats :=
  kinds.foldl addKind zero

/-- The sum of a sequence of statistics. -/
def sum (all : List LineStats) : LineStats :=
  all.foldl merge zero

/-- Whether no line is code, comment or blank. The overlap does not matter. -/
def isEmpty (stats : LineStats) : Bool :=
  stats.code == 0 && stats.comment == 0 && stats.blank == 0

theorem merge_assoc (a b c : LineStats) : (a.merge b).merge c = a.merge (b.merge c) := by
  simp only [merge, Int.add_assoc]

theorem merge_comm (a b : LineStats) : a.merge b = b.merge a := by
  simp only [merge, Int.add_comm]

@[simp] theorem merge_zero (a : LineStats) : a.merge zero = a := by
  simp [merge, zero]

@[simp] theorem zero_merge (a : LineStats) : zero.merge a = a := by
  simp [merge, zero]

/-- The number of lines adds up over a merge. -/
theorem lines_merge (a b : LineStats) : (a.merge b).lines = a.lines + b.lines := by
  simp only [lines, merge]
  omega

end LineStats

end LineCensus
