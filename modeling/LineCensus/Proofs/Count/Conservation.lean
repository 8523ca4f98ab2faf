/-
# Counting keeps every line

A file is counted in two ways: as a whole, and role by role. The two go different ways
through the library, one reconciling a single set of statistics and the other one for
each role, and this module shows that they come to the same. Neither ever has anything
to reconcile, because the scanner of a file that is counted classifies all of its lines.

That a scanner may refuse a file does not get in the way. The only one that does is
given no file but those it accepts, since the language of such a file is confirmed by
the very line that the scanner would refuse it for.
-/

import LineCensus.Count
import LineCensus.Proofs.Scanner.Classification

namespace LineCensus

open Text

/-! ## Files that reach a scanner are not refused by it -/

namespace Language

theorem mem_of_lookUp? {table : List (Language × List String)} {fits : String → Bool}
    {language : Language} (h : lookUp? table fits = some language) :
    ∃ row ∈ table, row.1 = language ∧ row.2.any fits = true := by
  obtain ⟨row, hfound, rfl⟩ := Option.map_eq_some_iff.mp h
  have hfits := List.find?_some (p := fun row : Language × List String => row.2.any fits) hfound
  exact ⟨row, List.mem_of_find?_eq_some hfound, rfl, hfits⟩

/-- Only the extension makes a file a command procedure, no name and no longer ending. -/
theorem extension?_of_ofLowerName? {name : List Char} {language : Language}
    (h : ofLowerName? name = some language) (hdcl : language.scanner = .dcl) :
    Name.extension? name = some ['c', 'o', 'm'] := by
  have hnames : ∀ row ∈ byFileName, row.1.scanner ≠ .dcl := by decide
  have hendings : ∀ row ∈ byEnding, row.1.scanner ≠ .dcl := by decide
  have hextensions : ∀ row ∈ byExtension, row.1.scanner = .dcl → row.2 = ["com"] := by decide
  simp only [ofLowerName?] at h
  split at h
  · obtain ⟨row, hmem, rfl, _⟩ := mem_of_lookUp? h
    exact absurd hdcl (hnames row hmem)
  · split at h
    · cases h
      exact absurd hdcl (by decide)
    · split at h
      · obtain ⟨row, hmem, rfl, _⟩ := mem_of_lookUp? h
        exact absurd hdcl (hendings row hmem)
      · obtain ⟨extension, hextension, rfl⟩ := Option.map_eq_some_iff.mp h
        cases hfound : lookUp? byExtension (fun known => known.toList == extension) with
        | none =>
            rw [hfound] at hdcl
            exact absurd hdcl (by decide)
        | some found =>
            rw [hfound] at hdcl
            obtain ⟨row, hmem, rfl, hfits⟩ := mem_of_lookUp? hfound
            rw [hextensions row hmem hdcl] at hfits
            simp only [List.any_cons, List.any_nil, Bool.or_false, beq_iff_eq] at hfits
            rw [hextension, ← hfits]
            rfl

/-- A file whose language is known by its name and its lines is one that the scanner for that
language accepts. -/
theorem not_refuses_of_ofFile? {name : String} {lines : List Line} {language : Language}
    (h : ofFile? name (some lines) = some language) : ¬ language.scanner.Refuses lines := by
  rintro ⟨hdcl, first, hfirst, hline⟩
  obtain ⟨hname, hconfirmed⟩ := Option.filter_eq_some_iff.mp h
  have hextension := extension?_of_ofLowerName? hname hdcl
  simp [needsConfirmation, isConfirmedBy, hextension, hdcl, hfirst, hline] at hconfirmed

end Language

/-! ## The lines of each role -/

theorem length_lineRoles (path : Path) (lines : List Line) (hint : RoleHint) :
    (lineRoles path lines hint).length = lines.length := by
  unfold lineRoles
  split
  · exact Rust.length_track Rust.State.start lines
  · exact List.length_map _

theorem mem_of_mem_kindsWithRole {role : CodeRole} {kinds : List LineKind}
    {roles : List CodeRole} {kind : LineKind} (h : kind ∈ kindsWithRole role kinds roles) :
    kind ∈ kinds := by
  obtain ⟨pair, hmem, rfl⟩ := List.mem_map.mp h
  exact (List.of_mem_zip (List.mem_filter.mp hmem).1).1

theorem kindsWithRole_cons (role first : CodeRole) (kind : LineKind) (kinds : List LineKind)
    (roles : List CodeRole) :
    kindsWithRole role (kind :: kinds) (first :: roles) =
      if first = role then kind :: kindsWithRole role kinds roles
      else kindsWithRole role kinds roles := by
  by_cases h : first = role <;> simp [kindsWithRole, h]

theorem length_kindsWithRole (role : CodeRole) {kinds : List LineKind} {roles : List CodeRole}
    (hlength : kinds.length = roles.length) :
    (kindsWithRole role kinds roles).length = roles.count role := by
  induction kinds generalizing roles with
  | nil =>
      rw [List.eq_nil_of_length_eq_zero hlength.symm]
      rfl
  | cons kind kinds ih =>
      cases roles with
      | nil => cases hlength
      | cons first roles =>
          have hothers := ih (Nat.succ.inj hlength)
          rw [kindsWithRole_cons, List.count_cons]
          by_cases hrole : first = role <;> simp [hrole, hothers]

/-- Each line has one of the two roles, so the statistics of the roles are those of the file. -/
theorem merge_ofKinds_kindsWithRole {kinds : List LineKind} {roles : List CodeRole}
    (hlength : kinds.length = roles.length) :
    (LineStats.ofKinds (kindsWithRole .mainline kinds roles)).merge
        (LineStats.ofKinds (kindsWithRole .test kinds roles)) = LineStats.ofKinds kinds := by
  induction kinds generalizing roles with
  | nil => rfl
  | cons kind kinds ih =>
      cases roles with
      | nil => cases hlength
      | cons role roles =>
          rw [kindsWithRole_cons, kindsWithRole_cons, LineStats.ofKinds_cons kind kinds,
            ← ih (Nat.succ.inj hlength)]
          cases role with
          | mainline =>
              simp only [reduceCtorEq, ↓reduceIte, LineStats.ofKinds_cons]
              rw [LineStats.merge_assoc]
          | test =>
              simp only [reduceCtorEq, ↓reduceIte, LineStats.ofKinds_cons]
              rw [← LineStats.merge_assoc, LineStats.merge_comm _ (LineStats.ofKind kind),
                LineStats.merge_assoc]

section

variable {kinds : List LineKind} (hkinds : ∀ kind ∈ kinds, kind.IsClassified)

include hkinds

theorem roleStats_eq (role : CodeRole) (roles : List CodeRole) :
    roleStats role kinds roles =
      .ok (if kindsWithRole role kinds roles = [] then none
        else some (LineStats.ofKinds (kindsWithRole role kinds roles))) := by
  have hclassified : ∀ kind ∈ kindsWithRole role kinds roles, kind.IsClassified :=
    fun kind hmem => hkinds kind (mem_of_mem_kindsWithRole hmem)
  have hlines := LineStats.lines_ofKinds hclassified
  unfold roleStats
  split
  · next hnone => simp [hnone]
  · next first others hsome =>
      rw [hsome, List.length_cons, Int.natCast_add] at hlines
      have hreconciled := LineStats.reconcile_of_lines_eq (LineStats.IsCount.ofKinds _) hlines
      rw [hsome, if_neg (List.cons_ne_nil _ _)]
      exact congrArg (Except.map some) hreconciled

/-- The statistics by role are found for all lines that are classified, and for a role without
lines there are none. -/
theorem exists_statsByRole (roles : List CodeRole) (hint : RoleHint) :
    ∃ byRole, statsByRole kinds roles hint = .ok byRole ∧
      ∀ role, (byRole.get role).getD .zero =
        LineStats.ofKinds (kindsWithRole role kinds roles) := by
  simp only [statsByRole, roleStats_eq hkinds, bind, Except.bind, pure, Except.pure]
  by_cases hnone : kindsWithRole .mainline kinds roles = [] ∧ kindsWithRole .test kinds roles = []
  · rw [hnone.1, hnone.2]
    refine ⟨_, rfl, fun role => ?_⟩
    have hrole : kindsWithRole role kinds roles = [] := by
      cases role
      · exact hnone.1
      · exact hnone.2
    rw [hrole, PerRole.get_ofFn]
    split <;> rfl
  · rw [if_neg]
    · refine ⟨_, rfl, fun role => ?_⟩
      have hgetD : ∀ found : List LineKind,
          (if found = [] then none else some (LineStats.ofKinds found)).getD .zero =
            LineStats.ofKinds found := by
        intro found
        cases found <;> rfl
      cases role <;> exact hgetD _
    · intro hempty
      apply hnone
      simpa using hempty

end

/-! ## One file -/

/-- The roles that the lines of a file are counted by. -/
def rolesOf (root : Option Path) (hint : Option RoleHint) (path : Path) (lines : List Line) :
    List CodeRole :=
  lineRoles path lines (hint.getD (Location.roleHint root path))

theorem length_rolesOf (root : Option Path) (hint : Option RoleHint) (path : Path)
    (lines : List Line) : (rolesOf root hint path lines).length = lines.length :=
  length_lineRoles _ _ _

namespace FileCount

/-- The statistics of a role, none being those of no line. -/
def bucket (count : FileCount) (role : CodeRole) : LineStats :=
  (count.roles.get role).getD .zero

theorem stats_eq_merge_bucket (count : FileCount) :
    count.stats = (count.bucket .mainline).merge (count.bucket .test) := rfl

/-- A count of a file that gives to each role the lines that have it. -/
structure Describes (count : FileCount) (scanner : ScannerId) (lines : List Line)
    (roles : List CodeRole) : Prop where
  accepted : ¬ scanner.Refuses lines
  oneRoleEach : roles.length = lines.length
  totalLines_eq : count.totalLines = lines.length
  bucket_eq : ∀ role, count.bucket role =
    LineStats.ofKinds (kindsWithRole role (scanner.scanner.classify lines) roles)

namespace Describes

variable {count : FileCount} {scanner : ScannerId} {lines : List Line} {roles : List CodeRole}
  (h : count.Describes scanner lines roles)

include h

theorem length_classify : (scanner.scanner.classify lines).length = roles.length := by
  rw [Scanner.length_classify, h.oneRoleEach]

/-- Over both roles the statistics are those that the scanner finds in the whole file. -/
theorem stats_eq_scan : count.stats = scanner.scanner.scan lines := by
  rw [stats_eq_merge_bucket, h.bucket_eq, h.bucket_eq,
    merge_ofKinds_kindsWithRole h.length_classify]
  rfl

theorem isCount_bucket (role : CodeRole) : (count.bucket role).IsCount := by
  rw [h.bucket_eq]
  exact LineStats.IsCount.ofKinds _

theorem lines_bucket (role : CodeRole) : (count.bucket role).lines = roles.count role := by
  have hclassified : ∀ kind ∈ kindsWithRole role (scanner.scanner.classify lines) roles,
      kind.IsClassified := fun kind hmem =>
    ScannerId.isClassified_of_mem_classify h.accepted (mem_of_mem_kindsWithRole hmem)
  rw [h.bucket_eq, LineStats.lines_ofKinds hclassified, length_kindsWithRole role h.length_classify]

theorem lines_stats : count.stats.lines = count.totalLines := by
  rw [h.stats_eq_scan, ScannerId.lines_scan h.accepted, h.totalLines_eq]

end Describes

end FileCount

theorem countFile_of_statsByRole {root : Option Path} {hint : Option RoleHint} {path : Path}
    {bytes : ByteArray} {language : Language} {byRole : PerRole (Option LineStats)}
    (h : languageOf? path (.ok bytes) = some language)
    (hbyRole : statsByRole (language.scanner.scanner.classify (linesOf bytes))
      (rolesOf root hint path (linesOf bytes)) (hint.getD (Location.roleHint root path)) =
        .ok byRole) :
    countFile root hint path (.ok bytes) =
      .ok (some ⟨path, language.label, (linesOf bytes).length, byRole⟩) := by
  rw [rolesOf] at hbyRole
  unfold countFile
  simp [h, hbyRole, Except.mapError, bind, Except.bind, pure, Except.pure]

/-- A file that can be read and whose language is known is counted. -/
theorem exists_countFile (root : Option Path) (hint : Option RoleHint) {path : Path}
    {bytes : ByteArray} {language : Language}
    (h : languageOf? path (.ok bytes) = some language) :
    ∃ count, countFile root hint path (.ok bytes) = .ok (some count) ∧ count.path = path ∧
      count.Describes language.scanner (linesOf bytes)
        (rolesOf root hint path (linesOf bytes)) := by
  have hknown := Language.not_refuses_of_ofFile? h
  obtain ⟨byRole, hbyRole, hbucket⟩ := exists_statsByRole
    (fun _ => ScannerId.isClassified_of_mem_classify hknown)
    (rolesOf root hint path (linesOf bytes)) (hint.getD (Location.roleHint root path))
  exact ⟨_, countFile_of_statsByRole h hbyRole, rfl, hknown, length_rolesOf _ _ _ _, rfl, hbucket⟩

/-- The statistics of the file as a whole are the scanner's own. -/
theorem countLines_eq {path : Path} {bytes : ByteArray} {language : Language}
    (h : languageOf? path (.ok bytes) = some language) :
    countLines path (.ok bytes) =
      .ok (some ⟨language.scanner.scanner.scan (linesOf bytes), (linesOf bytes).length⟩) := by
  have hknown := Language.not_refuses_of_ofFile? h
  have hreconciled := LineStats.reconcile_of_lines_eq (LineStats.IsCount.ofKinds _)
    (ScannerId.lines_scan hknown)
  unfold countLines
  simp [h, countLinesAs, Scanner.scan, hreconciled, Except.mapError, Except.map, bind, Except.bind,
    pure, Except.pure]

theorem countFile_of_languageOf?_eq_none {path : Path} {contents : Contents}
    (h : languageOf? path contents = none) (root : Option Path) (hint : Option RoleHint) :
    countFile root hint path contents = .ok none := by
  unfold countFile
  rw [h]

theorem countFile_of_unreadable {path : Path} {failure : SystemError} {language : Language}
    (h : languageOf? path (.error failure) = some language) (root : Option Path)
    (hint : Option RoleHint) :
    countFile root hint path (.error failure) = .error (.unreadable failure) := by
  unfold countFile
  simp [h, Except.mapError, bind, Except.bind]

/-- The four things that can come of counting a file. In none of them do the statistics fail to
add up. -/
theorem countFile_cases (root : Option Path) (hint : Option RoleHint) (path : Path)
    (contents : Contents) :
    countFile root hint path contents = .ok none ∨
    (∃ failure, countFile root hint path contents = .error (.unreadable failure)) ∨
    ∃ count scanner lines, countFile root hint path contents = .ok (some count) ∧
      count.path = path ∧
      count.Describes scanner lines (rolesOf root hint path lines) := by
  cases hlanguage : languageOf? path contents with
  | none => exact .inl (countFile_of_languageOf?_eq_none hlanguage root hint)
  | some language =>
      cases contents with
      | error failure => exact .inr (.inl ⟨failure, countFile_of_unreadable hlanguage root hint⟩)
      | ok bytes =>
          obtain ⟨count, hcount, hpath, hdescribes⟩ := exists_countFile root hint hlanguage
          exact .inr (.inr ⟨count, _, _, hcount, hpath, hdescribes⟩)

/-- **Both ways of counting a file agree, and neither loses a line.** Every file that can be read
and whose language is known is counted in either way, without anything out of balance, whatever
its root and whatever is said about its role beforehand. -/
theorem countFile_agrees_countLines (root : Option Path) (hint : Option RoleHint) (path : Path)
    (bytes : ByteArray) (language : Language)
    (h : languageOf? path (.ok bytes) = some language) :
    ∃ count whole,
      countFile root hint path (.ok bytes) = .ok (some count) ∧
      countLines path (.ok bytes) = .ok (some whole) ∧
      count.totalLines = (linesOf bytes).length ∧
      whole.totalLines = (linesOf bytes).length ∧
      count.stats = whole.stats ∧
      ∀ role,
        (count.bucket role).code + (count.bucket role).comment + (count.bucket role).blank -
            (count.bucket role).overlap =
          (rolesOf root hint path (linesOf bytes)).count role ∧
        (count.bucket role).overlap ≤ (count.bucket role).comment ∧
        (count.bucket role).overlap ≤ (count.bucket role).code := by
  obtain ⟨count, hcount, _, hdescribes⟩ := exists_countFile root hint h
  refine ⟨count, _, hcount, countLines_eq h, hdescribes.totalLines_eq, rfl,
    hdescribes.stats_eq_scan, fun role => ?_⟩
  have hbounds := hdescribes.isCount_bucket role
  exact ⟨hdescribes.lines_bucket role, hbounds.overlap_le_comment, hbounds.overlap_le_code⟩

/-- The two ways agree about a command procedure, whose language its first line confirms. -/
theorem countFile_agrees_countLines_procedure :
    let path : Path := ⟨.relative, [⟨"run.com", by decide⟩]⟩
    let bytes : ByteArray := "$ exit\n".toUTF8
    languageOf? path (.ok bytes) = some .dcl ∧
    ∃ count whole, countFile none none path (.ok bytes) = .ok (some count) ∧
      countLines path (.ok bytes) = .ok (some whole) ∧ count.stats = whole.stats := by
  intro path bytes
  have hlanguage : languageOf? path (.ok bytes) = some .dcl := by decide +kernel
  obtain ⟨count, whole, hcount, hwhole, _, _, hstats, _⟩ :=
    countFile_agrees_countLines none none path bytes .dcl hlanguage
  exact ⟨hlanguage, count, whole, hcount, hwhole, hstats⟩

end LineCensus
