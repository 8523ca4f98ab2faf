/-
# The roles of one file

A role is among the statistics of a file if a line of the file has it, and for a file
without lines it is the one of its location. So a file has a single role unless its lines
are read for their roles, which is meant for Rust.

Two readings of the name have to agree on what is Rust. The language goes by what the name
stands for as a whole and only then by its extension, and the decision to read the lines
goes by the extension alone. They differ on the names of container build files that end
in the extension of Rust, and on no others.
-/

import LineCensus.Proofs.Count.Confirmation

namespace LineCensus

open Text

/-! ## The roles that are counted -/

theorem kindsWithRole_eq_nil_iff (role : CodeRole) {kinds : List LineKind}
    {roles : List CodeRole} (hlength : kinds.length = roles.length) :
    kindsWithRole role kinds roles = [] ↔ role ∉ roles := by
  rw [← List.length_eq_zero_iff, length_kindsWithRole role hlength, List.count_eq_zero]

/-- The roles with statistics are those of the lines, and without lines the one of the hint. -/
theorem isSome_get_of_statsByRole {kinds : List LineKind}
    (hkinds : ∀ kind ∈ kinds, kind.IsClassified) {roles : List CodeRole}
    (hlength : kinds.length = roles.length) {hint : RoleHint}
    {byRole : PerRole (Option LineStats)} (h : statsByRole kinds roles hint = .ok byRole)
    (role : CodeRole) :
    (byRole.get role).isSome = true ↔ role ∈ roles ∨ roles = [] ∧ role = hint.uniformRole := by
  have hstats : ∀ role, roleStats role kinds roles =
      .ok (if role ∈ roles then some (LineStats.ofKinds (kindsWithRole role kinds roles))
        else none) := by
    intro role
    rw [roleStats_eq hkinds]
    simp only [kindsWithRole_eq_nil_iff role hlength, ite_not]
  simp only [statsByRole, hstats, bind, Except.bind, pure, Except.pure] at h
  by_cases hroles : roles = []
  · subst hroles
    simp only [List.not_mem_nil, ↓reduceIte, Option.isNone_none, Bool.and_self,
      Except.ok.injEq] at h
    rw [← h, PerRole.get_ofFn]
    split <;> simp [*]
  · -- some line has a role, so the role of the hint is not fallen back on
    obtain ⟨first, hfirst⟩ := List.exists_mem_of_ne_nil roles hroles
    rw [if_neg] at h
    · cases h
      cases role <;> simp [PerRole.get, hroles]
    · cases first <;> simp [hfirst]

namespace FileCount

/-- The count has statistics for this role and for no other. -/
def HasOnly (count : FileCount) (role : CodeRole) : Prop :=
  ∀ other, (count.roles.get other).isSome = true ↔ other = role

/-- A count with a single role does not have both. -/
theorem HasOnly.not_both {count : FileCount} {role : CodeRole} (h : count.HasOnly role) :
    ¬ (count.roles.mainline.isSome = true ∧ count.roles.test.isSome = true) := by
  rintro ⟨hmainline, htest⟩
  have hrole : CodeRole.mainline = .test :=
    ((h .mainline).mp hmainline).trans ((h .test).mp htest).symm
  cases hrole

/-- Lines that all have one role leave no other one, and so does having no lines. -/
theorem hasOnly_of_uniform {count : FileCount} {lines : List Line} {role : CodeRole}
    (h : ∀ other, (count.roles.get other).isSome = true ↔
      other ∈ lines.map (fun _ => role) ∨ lines = [] ∧ other = role) : count.HasOnly role := by
  intro other
  rw [h, List.map_const', List.mem_replicate, Ne, List.length_eq_zero_iff, ← or_and_right]
  exact and_iff_right (Decidable.not_or_self _)

end FileCount

/-- A file that is counted can be read, has a known language, and has the roles of its lines. -/
theorem roles_of_countFile {root : Option Path} {hint : Option RoleHint} {path : Path}
    {contents : Contents} {count : FileCount}
    (h : countFile root hint path contents = .ok (some count)) :
    ∃ bytes language, contents = .ok bytes ∧ languageOf? path contents = some language ∧
      count.language = language.label ∧
      ∀ role, (count.roles.get role).isSome = true ↔
        role ∈ rolesOf root hint path (linesOf bytes) ∨
          linesOf bytes = [] ∧ role = (hint.getD (Location.roleHint root path)).uniformRole := by
  cases hlanguage : languageOf? path contents with
  | none =>
      rw [countFile_of_languageOf?_eq_none hlanguage] at h
      cases h
  | some language =>
      cases contents with
      | error failure =>
          rw [countFile_of_unreadable hlanguage] at h
          cases h
      | ok bytes =>
          have hknown := Language.not_refuses_of_ofFile? hlanguage
          have hkinds : ∀ kind ∈ language.scanner.scanner.classify (linesOf bytes),
              kind.IsClassified := fun _ => ScannerId.isClassified_of_mem_classify hknown
          obtain ⟨byRole, hbyRole, _⟩ := exists_statsByRole hkinds
            (rolesOf root hint path (linesOf bytes)) (hint.getD (Location.roleHint root path))
          rw [countFile_of_statsByRole hlanguage hbyRole] at h
          cases h
          refine ⟨bytes, language, rfl, rfl, rfl, fun role => ?_⟩
          have hlength := length_rolesOf root hint path (linesOf bytes)
          rw [isSome_get_of_statsByRole hkinds (by rw [Scanner.length_classify, hlength]) hbyRole,
            ← List.length_eq_zero_iff, hlength, List.length_eq_zero_iff]

/-! ## Names with the extension of Rust -/

namespace Language

/-- The extension of Rust. -/
def rustExtension : List Char := ['r', 's']

/-- A name with the extension of Rust is one of a file in it, or of a build file. -/
theorem ofLowerName?_of_rustExtension {name : List Char}
    (h : Name.extension? name = some rustExtension) :
    ofLowerName? name =
      if startsWith "dockerfile.".toList name then some dockerfile else some rust := by
  have hextension : lookUp? byExtension (fun known => known.toList == rustExtension) =
      some rust := by decide
  rw [ofLowerName?_of_own_extension (by decide) (by decide) h, hextension, Option.getD_some]

/-- Whether a name stands for a build file and has the extension of Rust. -/
def IsTrackedBuildFile (name : String) : Prop :=
  startsWith "dockerfile.".toList (lower name.toList) = true ∧
  Name.extension? (lower name.toList) = some rustExtension

instance (name : String) : Decidable (IsTrackedBuildFile name) :=
  inferInstanceAs (Decidable (_ ∧ _))

end Language

/-- A file with the extension of Rust is in Rust or a build file, whatever is in it. -/
theorem languageOf?_of_rustExtension {path : Path}
    (h : Name.extension? (lower path.name.toList) = some Language.rustExtension)
    (contents : Contents) :
    languageOf? path contents =
      if Language.IsTrackedBuildFile path.name then some Language.dockerfile
      else some Language.rust := by
  have hother : some Language.rustExtension ≠ some Language.confirmedExtension := by decide
  rw [languageOf?, Language.ofFile?_of_extension?_ne (h ▸ hother), Language.ofFileName?,
    Language.ofLowerName?_of_rustExtension h]
  simp only [Language.IsTrackedBuildFile, h, and_true]

/-- The lines are read for their roles if the name has the extension of Rust in any case and the
file is not a test anyway. -/
theorem rolesOf_eq (root : Option Path) (hint : Option RoleHint) (path : Path)
    (lines : List Line) :
    rolesOf root hint path lines =
      if (hint.getD (Location.roleHint root path)).uniformRole = .mainline ∧
          Name.extension? (lower path.name.toList) = some Language.rustExtension then
        Rust.lineRoles lines
      else lines.map fun _ => (hint.getD (Location.roleHint root path)).uniformRole := by
  have hsuffix : lowerName path.suffix = ".rs" ↔
      Name.extension? (lower path.name.toList) = some Language.rustExtension :=
    path.lowerName_suffix_eq_iff Language.rustExtension
  rw [rolesOf, lineRoles]
  simp only [hsuffix]

/-! ## Who has more than one role -/

/-- A build file with the extension of Rust has the roles that its lines have when they are read as
Rust, unless it is a test. -/
theorem exists_countFile_of_isTrackedBuildFile {path : Path}
    (h : Language.IsTrackedBuildFile path.name) (root : Option Path) (hint : Option RoleHint)
    (bytes : ByteArray) :
    ∃ count, countFile root hint path (.ok bytes) = .ok (some count) ∧
      count.language = Language.dockerfile.label ∧
      ((hint.getD (Location.roleHint root path)).uniformRole = .test → count.HasOnly .test) ∧
      ((hint.getD (Location.roleHint root path)).uniformRole = .mainline →
        ∀ role, (count.roles.get role).isSome = true ↔
          role ∈ Rust.lineRoles (linesOf bytes) ∨ linesOf bytes = [] ∧ role = .mainline) := by
  have hlanguage := (languageOf?_of_rustExtension h.2 (.ok bytes)).trans (if_pos h)
  obtain ⟨count, hcount, _⟩ := exists_countFile root hint hlanguage
  obtain ⟨bytes, language, hbytes, hown, hlabel, hroles⟩ := roles_of_countFile hcount
  cases hbytes
  cases hlanguage.symm.trans hown
  refine ⟨count, hcount, hlabel, fun htest => ?_, fun hmainline => ?_⟩
  · rw [htest, rolesOf_eq, htest] at hroles
    exact FileCount.hasOnly_of_uniform hroles
  · rw [hmainline, rolesOf_eq, if_pos ⟨hmainline, h.2⟩] at hroles
    exact hroles

/-- **Only Rust is read line by line, unless a build file is named like it.** Let a file have any
name but that of a build file with the extension of Rust. Then whatever is in it and whatever is
known about its role, it has both roles only if it is in Rust, and in every other language it has
the role of the hint and no other. For a build file with the extension, and for no other, this
fails: unless it is a test it has the roles that its lines have as lines of Rust. -/
theorem countFile_hasOnly_iff (path : Path) :
    ((∀ root hint contents count, countFile root hint path contents = .ok (some count) →
        (count.roles.mainline.isSome = true ∧ count.roles.test.isSome = true →
          count.language = Language.rust.label) ∧
        (count.language ≠ Language.rust.label →
          count.HasOnly (hint.getD (Location.roleHint root path)).uniformRole)) ↔
      ¬ Language.IsTrackedBuildFile path.name) ∧
    (Language.IsTrackedBuildFile path.name → ∀ root hint bytes, ∃ count,
      countFile root hint path (.ok bytes) = .ok (some count) ∧
      count.language = Language.dockerfile.label ∧
      ((hint.getD (Location.roleHint root path)).uniformRole = .test → count.HasOnly .test) ∧
      ((hint.getD (Location.roleHint root path)).uniformRole = .mainline →
        ∀ role, (count.roles.get role).isSome = true ↔
          role ∈ Rust.lineRoles (linesOf bytes) ∨ linesOf bytes = [] ∧ role = .mainline)) := by
  refine ⟨⟨fun honly h => ?_, fun h root hint contents count hcount => ?_⟩,
    exists_countFile_of_isTrackedBuildFile⟩
  · -- a test attribute, its item and the item behind that
    obtain ⟨count, hcount, hlabel, _, hroles⟩ := exists_countFile_of_isTrackedBuildFile h none
      (some .mainlineFile) "#[test]\nfn f();\nfn g();\n".toUTF8
    have hread : Rust.lineRoles (linesOf "#[test]\nfn f();\nfn g();\n".toUTF8) =
        [.test, .test, .mainline] := by decide +kernel
    rw [hread] at hroles
    have hboth := (honly _ _ _ _ hcount).1
      ⟨(hroles rfl .mainline).mpr (by decide), (hroles rfl .test).mpr (by decide)⟩
    rw [hlabel] at hboth
    exact absurd hboth (by decide)
  · obtain ⟨bytes, language, rfl, hlanguage, hlabel, hroles⟩ := roles_of_countFile hcount
    rw [rolesOf_eq] at hroles
    by_cases hextension :
        Name.extension? (lower path.name.toList) = some Language.rustExtension
    · rw [languageOf?_of_rustExtension hextension, if_neg h] at hlanguage
      cases hlanguage
      exact ⟨fun _ => hlabel, fun hother => absurd hlabel hother⟩
    · rw [if_neg fun hread => hextension hread.2] at hroles
      have honly := FileCount.hasOnly_of_uniform hroles
      exact ⟨fun hboth => absurd hboth honly.not_both, fun _ => honly⟩

/-- A build file without a line of Rust in it, and with both roles. -/
theorem countFile_hasOnly_iff_of_tracked_build_file :
    let path : Path := ⟨.slash, [⟨"Dockerfile.rs", by decide⟩]⟩
    let bytes : ByteArray := "#[test]\nRUN f;\nRUN g\n".toUTF8
    Language.IsTrackedBuildFile path.name ∧
    (∃ count, countFile none none path (.ok bytes) = .ok (some count) ∧
      count.language = "Dockerfile" ∧
      count.roles.mainline.isSome = true ∧ count.roles.test.isSome = true) ∧
    ¬ ∀ root hint contents count, countFile root hint path contents = .ok (some count) →
      (count.roles.mainline.isSome = true ∧ count.roles.test.isSome = true →
        count.language = Language.rust.label) ∧
      (count.language ≠ Language.rust.label →
        count.HasOnly (hint.getD (Location.roleHint root path)).uniformRole) := by
  intro path bytes
  have htracked : Language.IsTrackedBuildFile path.name := by decide +kernel
  obtain ⟨hiff, hcounted⟩ := countFile_hasOnly_iff path
  obtain ⟨count, hcount, hlabel, _, hroles⟩ := hcounted htracked none none bytes
  have hread : Rust.lineRoles (linesOf bytes) = [.test, .test, .mainline] := by decide +kernel
  rw [hread] at hroles
  have hmainline : ((none : Option RoleHint).getD
      (Location.roleHint none path)).uniformRole = .mainline := by decide +kernel
  exact ⟨htracked, ⟨count, hcount, hlabel, (hroles hmainline .mainline).mpr (by decide),
    (hroles hmainline .test).mpr (by decide)⟩, fun honly => hiff.mp honly htracked⟩

end LineCensus
