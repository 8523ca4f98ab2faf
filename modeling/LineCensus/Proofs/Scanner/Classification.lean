/-
# Every scanner classifies every line

A scanner may be wrong about what a line holds, but it is never silent: a line of
white space is blank, and every other line is code, comment or both. Whatever a
scanner carries from line to line, this is decided by its step alone, so it is shown
once for each kind of step and follows for whole files from the rules that all
scanners share.

For delimited comments it holds for any delimiters, also for empty ones and for openers
that count in some places only. The one exception to the rule is no step at all: the
scanner for command procedures may refuse a file as a whole, and then no line of it has
any kind.
-/

import LineCensus.Proofs.Line.Conservation
import LineCensus.Proofs.Text.Search
import LineCensus.Scanner.Registry
import Mathlib.Data.List.Forall2

namespace LineCensus

open Text

/-- A kind that tells blank lines from those that hold something. -/
def LineKind.Suits (kind : LineKind) (line : Line) : Prop :=
  (kind = blankLine ↔ isBlankText line = true) ∧ (isBlankText line = false → kind.IsText)

namespace LineKind

theorem suits_blankLine {line : Line} (h : isBlankText line = true) : blankLine.Suits line :=
  ⟨⟨fun _ => h, fun _ => rfl⟩, fun hnot => absurd (h.symm.trans hnot) (by decide)⟩

theorem IsText.suits {kind : LineKind} {line : Line} (h : kind.IsText)
    (hline : isBlankText line = false) : kind.Suits line :=
  ⟨⟨fun hkind => absurd hkind h.ne_blankLine,
      fun hnot => absurd (hline.symm.trans hnot) (by decide)⟩,
    fun _ => h⟩

theorem Suits.isClassified {kind : LineKind} {line : Line} (h : kind.Suits line) :
    kind.IsClassified := by
  cases hline : isBlankText line with
  | true => exact .inl (h.1.mpr hline)
  | false => exact .inr (h.2 hline)

/-- Adding marks to a line that holds something leaves it such a line. -/
theorem IsText.withCode {kind : LineKind} (h : kind.IsText) (present : Bool) :
    (kind.withCode present).IsText := by
  rcases h with rfl | rfl | rfl <;> cases present <;> simp [LineKind.withCode, isText_iff,
    codeLine, commentLine, mixedLine]

theorem isText_withCode_true {kind : LineKind} (h : kind.blank = false) :
    (kind.withCode true).IsText := by
  simp [isText_iff, withCode, h]

/-- A mark makes a comment of a line, whether or not there was code in front of it. -/
theorem isText_withComment {kind : LineKind} (h : kind.blank = false) {present : Bool} :
    (kind.withCode present).withComment.IsText := by
  simp [isText_iff, withComment, withCode, h]

end LineKind

/-! ## Scanners in general -/

namespace Scanner

/-- A scanner that finds code or comment on every line that is not blank. -/
def Classifies (scanner : Scanner) : Prop :=
  ∀ (state : scanner.State) (line : Line), isBlankText line = false →
    (scanner.step state line).1.IsText

namespace Classifies

variable {scanner : Scanner}

theorem advance (h : scanner.Classifies) (state : scanner.State) (line : Line) :
    (scanner.advance state line).1.Suits line := by
  cases hline : isBlankText line with
  | true =>
      simp only [Scanner.advance, hline, ↓reduceIte]
      exact LineKind.suits_blankLine hline
  | false =>
      simp only [Scanner.advance, hline, Bool.false_eq_true, ↓reduceIte]
      exact (h state line hline).suits hline

/-- From any state on, each line gets a kind that suits it. -/
theorem run (h : scanner.Classifies) (state : scanner.State) (lines : List Line) :
    List.Forall₂ (fun line kind => kind.Suits line) lines (scanner.run state lines).1 := by
  induction lines generalizing state with
  | nil => exact List.Forall₂.nil
  | cons line rest ih =>
      rw [run_cons]
      exact List.Forall₂.cons (h.advance state line) (ih _)

theorem stateless {kind : Line → LineKind}
    (h : ∀ line, isBlankText line = false → (kind line).IsText) :
    (Scanner.stateless kind).Classifies :=
  fun _ line hline => h line hline

end Classifies

/-- A line that names an interpreter is not blank. -/
theorem isBlankText_of_isShebang {line : Line} (h : isShebang line = true) :
    isBlankText line = false := by
  cases hline : isBlankText line with
  | false => rfl
  | true =>
      have hempty : trimLeft line = [] := trimLeft_of_isBlankText hline
      simp [isShebang, trim, trimRight, hempty, startsWith] at h

/-- In a file that is not refused each line gets a kind that suits it. -/
theorem Classifies.classify {scanner : Scanner} (h : scanner.Classifies) {lines : List Line}
    (hknown : scanner.recognizes lines = true) :
    List.Forall₂ (fun line kind => kind.Suits line) lines (scanner.classify lines) := by
  simp only [Scanner.classify, hknown, ↓reduceIte]
  cases lines with
  | nil => exact List.Forall₂.nil
  | cons first rest =>
      simp only
      by_cases hshebang : (scanner.shebangIsCode && isShebang first) = true
      · rw [if_pos hshebang]
        have hfirst := isBlankText_of_isShebang (Bool.and_eq_true_iff.mp hshebang).2
        exact List.Forall₂.cons (LineKind.isText_codeLine.suits hfirst) (h.run scanner.start rest)
      · rw [if_neg hshebang]
        exact h.run scanner.start (first :: rest)

/-- Every line gets one kind, also in a file that is refused. -/
theorem length_classify (scanner : Scanner) (lines : List Line) :
    (scanner.classify lines).length = lines.length := by
  unfold Scanner.classify
  split
  · cases lines with
    | nil => rfl
    | cons first rest =>
        simp only
        split <;> simp [length_run]
  · exact List.length_map _

end Scanner

/-! ## Delimited comments -/

namespace Delimiters

/-- A line read from outside every block ends up classified, if something on it is still to be
read or has been found already. -/
theorem isText_readOutside (d : Delimiters) {kind : LineKind} {text : List Char}
    (hkind : kind.blank = false) (h : isBlankText text = false ∨ kind.IsText) :
    (d.readOutside kind text).1.IsText := by
  fun_induction d.readOutside kind text with
  | case1 kind text =>
      -- no mark is left, so what is not white space is code
      rcases h with htext | hfound
      · rw [htext]
        exact LineKind.isText_withCode_true hkind
      · exact hfound.withCode _
  | case2 | case3 | case4 | case6 => exact LineKind.isText_withComment hkind
  | case5 kind text position marked block rest _ _ _ ih =>
      exact ih hkind (.inr (LineKind.isText_withComment hkind))

theorem isText_readLine (d : Delimiters) (inside : Option (List Char)) {line : Line}
    (hline : isBlankText line = false) : (d.readLine inside line).1.IsText := by
  cases inside with
  | none => exact d.isText_readOutside rfl (.inl hline)
  | some closer =>
      simp only [readLine]
      split
      · exact LineKind.isText_commentLine
      · exact LineKind.isText_commentLine
      · exact d.isText_readOutside rfl (.inr LineKind.isText_commentLine)

/-- Whatever the delimiters are, lines with something on them are classified, provided that the
rule for whole lines does the same. -/
theorem classifies (d : Delimiters)
    (hwhole : ∀ line kind, d.wholeLine line = some kind → kind.IsText) :
    (Scanner.delimited d).Classifies := by
  intro inside line hline
  simp only [Scanner.delimited]
  split
  · next hkind => exact hwhole _ _ hkind
  · exact d.isText_readLine _ hline

theorem isText_wholeLine_rust {line : Line} {kind : LineKind}
    (h : rust.wholeLine line = some kind) : kind.IsText := by
  simp only [rust] at h
  split at h
  · cases h
    exact LineKind.isText_codeLine
  · cases h

theorem isText_wholeLine_iplan {line : Line} {kind : LineKind}
    (h : iplan.wholeLine line = some kind) : kind.IsText := by
  simp only [iplan] at h
  split at h
  · cases h
    exact LineKind.isText_commentLine
  · cases h

end Delimiters

/-! ## The other kinds of step -/

namespace Scanner

theorem classifies_commentless : commentless.Classifies :=
  Classifies.stateless fun _ _ => LineKind.isText_codeLine

/-- A line is a comment or it is code. -/
private theorem isText_ite (comment : Bool) :
    (if comment then LineKind.commentLine else LineKind.codeLine).IsText := by
  cases comment
  · exact LineKind.isText_codeLine
  · exact LineKind.isText_commentLine

theorem classifies_prefixed (markers : List (List Char)) (shebangIsCode : Bool) :
    (prefixed markers shebangIsCode).Classifies :=
  fun _ _ _ => isText_ite _

theorem classifies_batch : batch.Classifies :=
  Classifies.stateless fun _ _ => isText_ite _

theorem classifies_dcl : dcl.Classifies :=
  fun _ _ _ => isText_ite _

theorem classifies_cobol : cobol.Classifies := by
  refine Classifies.stateless fun card _ => ?_
  split
  · exact LineKind.isText_commentLine
  · split
    · exact LineKind.isText_commentLine
    · split
      · exact LineKind.isText_mixedLine
      · exact LineKind.isText_codeLine

theorem isText_exclamationKind (line : Line) : (exclamationKind line).IsText := by
  unfold exclamationKind
  split
  · exact LineKind.isText_commentLine
  · split
    · exact LineKind.isText_mixedLine
    · exact LineKind.isText_codeLine

theorem classifies_fortranFree : fortranFree.Classifies :=
  Classifies.stateless fun line _ => isText_exclamationKind line

theorem classifies_fortranFixed : fortranFixed.Classifies := by
  refine Classifies.stateless fun line _ => ?_
  split
  · exact LineKind.isText_commentLine
  · exact isText_exclamationKind line

theorem classifies_perl : perl.Classifies := by
  intro inBlock line _
  simp only [perl]
  split
  · exact LineKind.isText_commentLine
  · split
    · exact LineKind.isText_commentLine
    · exact isText_ite _

theorem classifies_ruby : ruby.Classifies := by
  intro inBlock line _
  simp only [ruby]
  split
  · exact LineKind.isText_commentLine
  · split
    · exact LineKind.isText_commentLine
    · exact isText_ite _

theorem classifies_docstring : docstring.Classifies := by
  intro state line _
  simp only [docstring, Docstring.readLine]
  split
  · split
    · exact LineKind.isText_commentLine
    · exact LineKind.isText_commentAnd _
  · split
    · exact LineKind.isText_commentLine
    · split
      · split
        · exact LineKind.isText_commentLine
        · exact LineKind.isText_commentAnd _
      · exact LineKind.isText_codeLine

theorem isText_of_kindAtSemicolon? {line : Line} {kind : LineKind}
    (h : Algol.kindAtSemicolon? line = some kind) : kind.IsText := by
  obtain ⟨stop, _, rfl⟩ := Option.map_eq_some_iff.mp h
  exact LineKind.isText_commentAnd _

theorem classifies_algol : algol.Classifies := by
  intro inComment line _
  simp only [algol, Algol.readLine]
  split
  · split
    · next hkind => exact isText_of_kindAtSemicolon? hkind
    · exact LineKind.isText_commentLine
  · split
    · exact LineKind.isText_commentAnd _
    · exact isText_ite _

theorem classifies_pascal : pascal.Classifies := by
  intro depths line _
  simp only [pascal, Pascal.readLine]
  split
  · split
    · exact LineKind.isText_commentLine
    · exact LineKind.isText_commentAnd _
  · split
    · exact LineKind.isText_commentLine
    · split
      · exact LineKind.isText_codeLine
      · split <;> exact LineKind.isText_commentAnd _

end Scanner

/-! ## The scanners by name -/

namespace ScannerId

/-- Each scanner of the library classifies every line that is not blank. -/
theorem classifies (id : ScannerId) : id.scanner.Classifies := by
  cases id with
  | algol => exact Scanner.classifies_algol
  | batch => exact Scanner.classifies_batch
  | cobol => exact Scanner.classifies_cobol
  | dcl => exact Scanner.classifies_dcl
  | fortranFixed => exact Scanner.classifies_fortranFixed
  | fortranFree => exact Scanner.classifies_fortranFree
  | pascal => exact Scanner.classifies_pascal
  | perl => exact Scanner.classifies_perl
  | python => exact Scanner.classifies_docstring
  | ruby => exact Scanner.classifies_ruby
  | generic | json | rst => exact Scanner.classifies_commentless
  | assembly | cmake | dockerfile | ini | makefile | mdhavers | shell | tcl | toml | yaml =>
      exact Scanner.classifies_prefixed _ _
  | rust => exact Delimiters.classifies _ fun _ _ => Delimiters.isText_wholeLine_rust
  | iplan => exact Delimiters.classifies _ fun _ _ => Delimiters.isText_wholeLine_iplan
  | cstyle | hcl | javascript | mustache | php | powershell | velocity | xml =>
      exact Delimiters.classifies _ nofun

/-- The one way in which a scanner can have nothing to say about a file: it is the one for command
procedures, and the first line that holds something does not look like the start of one. -/
def Refuses (id : ScannerId) (lines : List Line) : Prop :=
  id = .dcl ∧ ∃ first, firstNonblank? lines = some first ∧ Dcl.isProcedureLine first = false

theorem recognizes_of_ne_dcl {id : ScannerId} (h : id ≠ .dcl) (lines : List Line) :
    id.scanner.recognizes lines = true := by
  cases id with
  | dcl => exact absurd rfl h
  | _ => rfl

/-- A scanner that refuses a file does so for the reason given above, and for no other. -/
theorem recognizes_eq_false_iff (id : ScannerId) (lines : List Line) :
    id.scanner.recognizes lines = false ↔ id.Refuses lines := by
  by_cases hdcl : id = .dcl
  · subst hdcl
    show (firstNonblank? lines).all Dcl.isProcedureLine = false ↔ _
    cases hfirst : firstNonblank? lines <;> simp [Refuses, hfirst]
  · rw [recognizes_of_ne_dcl hdcl]
    exact ⟨fun h => absurd h (by decide), fun h => absurd h.1 hdcl⟩

section

variable {id : ScannerId} {lines : List Line} (h : ¬ id.Refuses lines)

include h

/-- In a file that is not refused every line gets a kind that suits it. -/
theorem suits_classify :
    List.Forall₂ (fun line kind => kind.Suits line) lines (id.scanner.classify lines) := by
  apply id.classifies.classify
  rwa [← recognizes_eq_false_iff, Bool.not_eq_false] at h

theorem isClassified_of_mem_classify {kind : LineKind}
    (hmem : kind ∈ id.scanner.classify lines) : kind.IsClassified := by
  obtain ⟨position, hposition, rfl⟩ := List.getElem_of_mem hmem
  have hsuits := (suits_classify h).get (by rwa [Scanner.length_classify] at hposition) hposition
  exact hsuits.isClassified

/-- The statistics of a file describe as many lines as it has. -/
theorem lines_scan : (id.scanner.scan lines).lines = lines.length := by
  rw [Scanner.scan, LineStats.lines_ofKinds fun _ => isClassified_of_mem_classify h,
    Scanner.length_classify]

end

/-- **A scanner says of every line what it is.** Blank lines are the lines of white space, every
other line is code, comment or both, and so the statistics add up to the length of the file before
anything is reconciled. A refused file is the only exception, and it has no kinds at all. -/
theorem classify_sorts_lines (id : ScannerId) (lines : List Line) :
    (id.scanner.classify lines).length = lines.length ∧
    (id.Refuses lines → ∀ kind ∈ id.scanner.classify lines, kind = .unclassified) ∧
    (¬ id.Refuses lines →
      List.Forall₂ (fun line kind => kind.Suits line) lines (id.scanner.classify lines) ∧
      (id.scanner.scan lines).code + (id.scanner.scan lines).comment +
          (id.scanner.scan lines).blank - (id.scanner.scan lines).overlap = lines.length ∧
      (id.scanner.scan lines).overlap ≤ (id.scanner.scan lines).comment ∧
      (id.scanner.scan lines).overlap ≤ (id.scanner.scan lines).code ∧
      (id.scanner.scan lines).reconcile lines.length = .ok (id.scanner.scan lines)) := by
  have hcount : (id.scanner.scan lines).IsCount := LineStats.IsCount.ofKinds _
  refine ⟨Scanner.length_classify _ _, fun hrefuses kind hmem => ?_, fun hknown => ?_⟩
  · have hunknown := (id.recognizes_eq_false_iff lines).mpr hrefuses
    simp only [Scanner.classify, hunknown, Bool.false_eq_true, ↓reduceIte, List.mem_map] at hmem
    obtain ⟨_, _, rfl⟩ := hmem
    rfl
  · have hlines := lines_scan hknown
    exact ⟨suits_classify hknown, hlines, hcount.overlap_le_comment, hcount.overlap_le_code,
      LineStats.reconcile_of_lines_eq hcount hlines⟩

end ScannerId

end LineCensus
