/-
# Counting one file

The lines of a file, sorted by kind and by role. A file whose language nobody counts
gives no answer, one that cannot be read gives its failure. Statistics are reconciled
with the number of lines, for the file as a whole and for the lines of each role alike.
-/

import LineCensus.Language
import LineCensus.Line.Reconcile
import LineCensus.Role.Location
import LineCensus.Role.Tracker
import LineCensus.SystemError

namespace LineCensus

open Text

/-- Why a file cannot be counted. -/
inductive CountError where
  | unreadable (failure : SystemError)
  | unbalanced (fault : Imbalance)
deriving DecidableEq

/-- What is in a file, or why it cannot be read. -/
abbrev Contents := Except SystemError ByteArray

def linesOf (bytes : ByteArray) : List Line :=
  readLines bytes.data.toList

/-- The language of a file, none if it is not counted. -/
def languageOf? (path : Path) (contents : Contents) : Option Language :=
  Language.ofFile? path.name (contents.toOption.map linesOf)

/-- The statistics of a file as a whole. -/
structure CountResult where
  stats : LineStats
  totalLines : Nat
deriving DecidableEq

/-- The statistics of a file in a known language. -/
def countLinesAs (scanner : ScannerId) (contents : Contents) : Except CountError CountResult := do
  let bytes ← contents.mapError .unreadable
  let lines := linesOf bytes
  let stats ← ((scanner.scanner.scan lines).reconcile lines.length).mapError .unbalanced
  return ⟨stats, lines.length⟩

/-- The statistics of a file, none if it is not counted. -/
def countLines (path : Path) (contents : Contents) : Except CountError (Option CountResult) :=
  match languageOf? path contents with
  | none => .ok none
  | some language => (countLinesAs language.scanner contents).map some

/-- The statistics of a file by role. A role that no line has is left out. -/
structure FileCount where
  path : Path
  language : String
  totalLines : Nat
  roles : PerRole (Option LineStats)
deriving DecidableEq

def FileCount.stats (count : FileCount) : LineStats :=
  (count.roles.mainline.getD .zero).merge (count.roles.test.getD .zero)

/-- The roles of the lines of a file. Only Rust files outside test locations are read for them;
in all others the lines have one role. -/
def lineRoles (path : Path) (lines : List Line) (hint : RoleHint) : List CodeRole :=
  if hint.uniformRole = .mainline ∧ lowerName path.suffix = ".rs" then Rust.lineRoles lines
  else lines.map fun _ => hint.uniformRole

def kindsWithRole (role : CodeRole) (kinds : List LineKind) (roles : List CodeRole) :
    List LineKind :=
  ((kinds.zip roles).filter (·.2 = role)).map (·.1)

/-- The statistics of the lines that have a role, none if there is no such line. -/
def roleStats (role : CodeRole) (kinds : List LineKind) (roles : List CodeRole) :
    Except Imbalance (Option LineStats) :=
  match kindsWithRole role kinds roles with
  | [] => .ok none
  | first :: others =>
    ((LineStats.ofKinds (first :: others)).reconcile (others.length + 1)).map some

/-- The statistics of a file by role. An empty file has the role of its location. -/
def statsByRole (kinds : List LineKind) (roles : List CodeRole) (hint : RoleHint) :
    Except Imbalance (PerRole (Option LineStats)) := do
  let mainline ← roleStats .mainline kinds roles
  let test ← roleStats .test kinds roles
  if mainline.isNone && test.isNone then
    return .ofFn fun role => if role = hint.uniformRole then some .zero else none
  else return ⟨mainline, test⟩

/-- Counts a file. Without a hint the role is inferred from where the file is below `root`. -/
def countFile (root : Option Path) (hint : Option RoleHint) (path : Path) (contents : Contents) :
    Except CountError (Option FileCount) :=
  match languageOf? path contents with
  | none => .ok none
  | some language => do
    let bytes ← contents.mapError .unreadable
    let lines := linesOf bytes
    let hint := hint.getD (Location.roleHint root path)
    let kinds := language.scanner.scanner.classify lines
    let byRole ← (statsByRole kinds (lineRoles path lines hint) hint).mapError .unbalanced
    return some ⟨path, language.label, lines.length, byRole⟩

end LineCensus
