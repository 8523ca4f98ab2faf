/-
# Names that content has to confirm

The name of a file says which language it is in, and for one extension the content has to
confirm it. That extension is the one of command procedures, but it is looked for in the
name and not in what the name came to. So there are names that stand for another language
and are asked for a confirmation all the same: those of container build files that end
in the extension. Every other name that is not one of a command procedure has the last
word, and nothing in a file, nor a failure to read it, keeps the file from being counted.
-/

import LineCensus.Proofs.Count.Conservation
import LineCensus.Proofs.Path.Extension

namespace LineCensus

open Text

namespace Language

theorem lookUp?_eq_none {table : List (Language × List String)} {fits : String → Bool}
    (h : ∀ row ∈ table, ∀ text ∈ row.2, fits text = false) : lookUp? table fits = none := by
  rw [lookUp?, Option.map_eq_none_iff, List.find?_eq_none]
  intro row hrow hfits
  obtain ⟨text, htext, hfit⟩ := List.any_eq_true.mp hfits
  rw [h row hrow text htext] at hfit
  cases hfit

/-- Where no known name and no longer ending speaks of an extension, a name with it stands for the
language of the extension, unless it is one of a build file. -/
theorem ofLowerName?_of_own_extension {name extension : List Char}
    (hnames : ∀ row ∈ byFileName, ∀ known ∈ row.2,
      Name.extension? known.toList ≠ some extension)
    (hendings : ∀ row ∈ byEnding, ∀ ending ∈ row.2,
      ¬ extension <:+ ending.toList ∧ ¬ ending.toList <:+ extension)
    (h : Name.extension? name = some extension) :
    ofLowerName? name =
      if startsWith "dockerfile.".toList name then some dockerfile
      else some ((lookUp? byExtension fun known => known.toList == extension).getD other) := by
  have hbyName : lookUp? byFileName (fun known => known.toList == name) = none := by
    refine lookUp?_eq_none fun row hrow known hknown => ?_
    rw [beq_eq_false_iff_ne]
    rintro rfl
    exact hnames row hrow known hknown h
  have hcompound : lookUp? byEnding (fun ending =>
      endsWith ending.toList name && ending.length < name.length) = none := by
    refine lookUp?_eq_none fun row hrow ending hending => ?_
    rw [Bool.and_eq_false_iff]
    left
    rw [← Bool.not_eq_true, endsWith, List.isSuffixOf_iff_suffix]
    intro hends
    -- of two endings of one text, one is an ending of the other
    obtain ⟨hlonger, hshorter⟩ := hendings row hrow ending hending
    exact (List.suffix_or_suffix_of_suffix (Name.isSuffix_of_extension? h) hends).elim
      hlonger hshorter
  simp only [ofLowerName?, hbyName, hcompound, h, Option.isSome_none, Option.map_some]
  rfl

/-- The extension of command procedures. -/
def confirmedExtension : List Char := ['c', 'o', 'm']

/-- A name with the extension of command procedures is one of them, or of a build file. -/
theorem ofLowerName?_of_extension? {name : List Char}
    (h : Name.extension? name = some confirmedExtension) :
    ofLowerName? name =
      if startsWith "dockerfile.".toList name then some dockerfile else some dcl := by
  have hextension : lookUp? byExtension (fun known => known.toList == confirmedExtension) =
      some dcl := by decide
  rw [ofLowerName?_of_own_extension (by decide) (by decide) h, hextension, Option.getD_some]

/-- Whether a name stands for a build file and has the extension of command procedures. -/
def IsDisputed (name : String) : Prop :=
  startsWith "dockerfile.".toList (lower name.toList) = true ∧
  Name.extension? (lower name.toList) = some confirmedExtension

instance (name : String) : Decidable (IsDisputed name) := inferInstanceAs (Decidable (_ ∧ _))

/-- A name without the extension has the last word. -/
theorem ofFile?_of_extension?_ne {name : String}
    (h : Name.extension? (lower name.toList) ≠ some confirmedExtension)
    (lines? : Option (List Line)) : ofFile? name lines? = ofFileName? name := by
  have hnot : ∀ language, needsConfirmation name language = false := by
    intro language
    rw [needsConfirmation, Bool.and_eq_false_iff]
    exact .inl (beq_eq_false_iff_ne.mpr h)
  simp only [ofFile?, hnot, Bool.not_false, Bool.true_or]
  cases ofFileName? name <;> rfl

/-- A name with the extension leaves it to the lines. -/
theorem ofFile?_of_isDisputed {name : String} (h : IsDisputed name)
    (lines? : Option (List Line)) :
    ofFileName? name = some dockerfile ∧
    ofFile? name lines? = if isConfirmedBy lines? then some dockerfile else none := by
  have hname : ofFileName? name = some dockerfile := by
    rw [ofFileName?, ofLowerName?_of_extension? h.2, if_pos h.1]
  have hneeds : needsConfirmation name dockerfile = true := by
    rw [needsConfirmation, h.2]
    rfl
  refine ⟨hname, ?_⟩
  rw [ofFile?, hname, Option.filter_some, hneeds, Bool.not_true, Bool.false_or]

/-- A name that is not one of a command procedure is disputed if it has the extension. -/
theorem isDisputed_iff {name : String} (hdcl : ofFileName? name ≠ some dcl) :
    IsDisputed name ↔ Name.extension? (lower name.toList) = some confirmedExtension := by
  refine ⟨And.right, fun hextension => ⟨?_, hextension⟩⟩
  apply Classical.byContradiction
  intro hother
  rw [ofFileName?, ofLowerName?_of_extension? hextension, if_neg hother] at hdcl
  exact hdcl rfl

end Language

/-- A file is passed over if and only if it is in no language. -/
theorem countFile_eq_none_iff (root : Option Path) (hint : Option RoleHint) (path : Path)
    (contents : Contents) :
    countFile root hint path contents = .ok none ↔ languageOf? path contents = none := by
  cases hlanguage : languageOf? path contents with
  | none => simp [countFile_of_languageOf?_eq_none hlanguage]
  | some language =>
      rw [iff_false_right (Option.some_ne_none language)]
      cases contents with
      | error failure => simp [countFile_of_unreadable hlanguage]
      | ok bytes =>
          obtain ⟨count, hcount, _⟩ := exists_countFile root hint hlanguage
          simp [hcount]

/-- **What a name says goes before what is in the file, unless the name is disputed.** Let a name be
that of no command procedure. Then whatever is in the file and whether or not it can be read, the
file is in the language of its name, and it is passed over only if its name is one of no language.
For a build file with the extension of command procedures, and for no other, this fails: the file is
passed over unless its first line with text in it is one of a command procedure. -/
theorem languageOf?_by_name_iff {path : Path}
    (hdcl : Language.ofFileName? path.name ≠ some Language.dcl) :
    ((∀ contents, languageOf? path contents = Language.ofFileName? path.name ∧
        ∀ root hint, countFile root hint path contents = .ok none ↔
          Language.ofFileName? path.name = none) ↔ ¬ Language.IsDisputed path.name) ∧
    (Language.IsDisputed path.name → ∀ contents, languageOf? path contents =
      if Language.isConfirmedBy (contents.toOption.map linesOf) then some Language.dockerfile
      else none) := by
  have hdisputed : Language.IsDisputed path.name → ∀ contents, languageOf? path contents =
      if Language.isConfirmedBy (contents.toOption.map linesOf) then some Language.dockerfile
      else none :=
    fun h _ => (Language.ofFile?_of_isDisputed h _).2
  refine ⟨⟨fun hname h => ?_, fun h contents => ?_⟩, hdisputed⟩
  · -- a file that cannot be read confirms nothing
    have hunread := (hname (.error (.notFound path))).1
    rw [hdisputed h, (Language.ofFile?_of_isDisputed h none).1] at hunread
    cases hunread
  · have hlanguage : languageOf? path contents = Language.ofFileName? path.name :=
      Language.ofFile?_of_extension?_ne (mt (Language.isDisputed_iff hdcl).mpr h) _
    refine ⟨hlanguage, fun root hint => ?_⟩
    rw [countFile_eq_none_iff, hlanguage]

/-- A build file that is passed over because of what is in it. -/
theorem languageOf?_by_name_iff_of_disputed_name :
    let path : Path := ⟨.slash, [⟨"Dockerfile.com", by decide⟩]⟩
    Language.ofFileName? path.name = some Language.dockerfile ∧
    Language.IsDisputed path.name ∧
    languageOf? path (.ok "FROM scratch\n".toUTF8) = none ∧
    ¬ ∀ contents, languageOf? path contents = Language.ofFileName? path.name ∧
      ∀ root hint, countFile root hint path contents = .ok none ↔
        Language.ofFileName? path.name = none := by
  intro path
  have hname : Language.ofFileName? path.name = some Language.dockerfile := by decide +kernel
  have hdisputed : Language.IsDisputed path.name := by decide +kernel
  have hdcl : Language.ofFileName? path.name ≠ some Language.dcl := by
    rw [hname]
    decide
  obtain ⟨hiff, hconfirmed⟩ := languageOf?_by_name_iff hdcl
  refine ⟨hname, hdisputed, ?_, fun h => hiff.mp h hdisputed⟩
  rw [hconfirmed hdisputed]
  decide +kernel

end LineCensus
