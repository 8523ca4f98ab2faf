/-
# Blank lines are transparent

Blank lines may be put between the lines of a file wherever one likes. They are told to
be blank, and nothing that a scanner says of the other lines changes, nor what it carries
from one of them to the next: no comment, string or documentation block begins, ends or
goes on differently because of a blank line.

Two rules look at a file as a whole. One is about the first line with something on it,
which a blank line is not. The other is about the very first line, so where a scanner
honours `#!` there, no blank line may be put in front of it.
-/

import LineCensus.Proofs.Scanner.Concatenation

namespace LineCensus

open Text

/-- A line of a file into which blank lines were put. -/
inductive PaddedLine where
  /-- A line that was there before. -/
  | kept (line : Line)
  /-- A line that was put in. -/
  | inserted (line : Line) (isBlank : isBlankText line = true)

namespace PaddedLine

/-- What is on a line. -/
def line : PaddedLine → Line
  | kept line | inserted line _ => line

def kept? : PaddedLine → Option Line
  | kept line => some line
  | inserted _ _ => none

def inserted? : PaddedLine → Option Line
  | kept _ => none
  | inserted line _ => some line

/-- The lines of the file with the blank lines. -/
abbrev lines (padded : List PaddedLine) : List Line := padded.map line

/-- The lines of the file before any were put in. -/
abbrev keptLines (padded : List PaddedLine) : List Line := padded.filterMap kept?

/-- The lines that were put in. -/
abbrev insertedLines (padded : List PaddedLine) : List Line := padded.filterMap inserted?

/-- Out of the kinds of all lines, those of the lines that are chosen. -/
def kindsOf (choose : PaddedLine → Option Line) (padded : List PaddedLine)
    (kinds : List LineKind) : List LineKind :=
  (padded.zip kinds).filterMap fun entry => (choose entry.1).map fun _ => entry.2

theorem kindsOf_cons (choose : PaddedLine → Option Line) (entry : PaddedLine)
    (rest : List PaddedLine) (kind : LineKind) (kinds : List LineKind) :
    kindsOf choose (entry :: rest) (kind :: kinds) =
      match choose entry with
      | some _ => kind :: kindsOf choose rest kinds
      | none => kindsOf choose rest kinds := by
  rw [kindsOf, List.zip_cons_cons, List.filterMap_cons]
  cases choose entry <;> rfl

/-- Where all lines have one kind, so have those that are chosen. -/
theorem kindsOf_map_const (choose : PaddedLine → Option Line) (padded : List PaddedLine)
    (kind : LineKind) :
    kindsOf choose padded ((lines padded).map fun _ => kind) =
      (padded.filterMap choose).map fun _ => kind := by
  induction padded with
  | nil => rfl
  | cons entry rest ih =>
      rw [lines, List.map_cons, List.map_cons, kindsOf_cons, ih, List.filterMap_cons]
      cases choose entry <;> rfl

/-- The first line with something on it is one that was there before. -/
theorem firstNonblank?_lines (padded : List PaddedLine) :
    firstNonblank? (lines padded) = firstNonblank? (keptLines padded) := by
  induction padded with
  | nil => rfl
  | cons entry rest ih =>
      cases entry with
      | kept text =>
          cases htext : isBlankText text with
          | true => simpa [firstNonblank?, line, kept?, htext] using ih
          | false => simp [firstNonblank?, line, kept?, htext]
      | inserted text isBlank => simpa [firstNonblank?, line, kept?, isBlank] using ih

end PaddedLine

namespace Scanner

open PaddedLine

theorem advance_of_isBlankText (scanner : Scanner) {line : Line} (h : isBlankText line = true)
    (state : scanner.State) : scanner.advance state line = (.blankLine, state) := by
  rw [advance, if_pos h]

/-- From any state on, blank lines change neither the kinds of the other lines nor what is known
after all of them. -/
theorem run_padded (scanner : Scanner) (state : scanner.State) (padded : List PaddedLine) :
    kindsOf kept? padded (scanner.run state (lines padded)).1 =
      (scanner.run state (keptLines padded)).1 ∧
    kindsOf inserted? padded (scanner.run state (lines padded)).1 =
      (insertedLines padded).map (fun _ => .blankLine) ∧
    (scanner.run state (lines padded)).2 = (scanner.run state (keptLines padded)).2 := by
  induction padded generalizing state with
  | nil => exact ⟨rfl, rfl, rfl⟩
  | cons entry rest ih =>
      cases entry with
      | kept text =>
          obtain ⟨hkept, hinserted, hstate⟩ := ih (scanner.advance state text).2
          simp only [lines, List.map_cons, List.filterMap_cons, line, kept?, inserted?, run_cons,
            kindsOf_cons]
          exact ⟨congrArg (_ :: ·) hkept, hinserted, hstate⟩
      | inserted text isBlank =>
          obtain ⟨hkept, hinserted, hstate⟩ := ih state
          simp only [lines, List.map_cons, List.filterMap_cons, line, kept?, inserted?, run_cons,
            kindsOf_cons, scanner.advance_of_isBlankText isBlank]
          exact ⟨hkept, congrArg (_ :: ·) hinserted, hstate⟩

/-- In a file that is not refused all inserted lines are blank, and the others have the kinds that
they had before. -/
theorem classify_padded_of_recognizes {scanner : Scanner} {padded : List PaddedLine}
    (hkept : scanner.recognizes (keptLines padded) = true)
    (hall : scanner.recognizes (lines padded) = true)
    (hshebang : scanner.shebangIsCode = true →
      (∀ first ∈ padded.head?, first.kept?.isSome) ∨
      ∀ first ∈ (keptLines padded).head?, isShebang first = false) :
    kindsOf kept? padded (scanner.classify (lines padded)) =
      scanner.classify (keptLines padded) ∧
    kindsOf inserted? padded (scanner.classify (lines padded)) =
      (insertedLines padded).map fun _ => .blankLine := by
  cases padded with
  | nil => exact ⟨(classify_nil scanner).symm, rfl⟩
  | cons entry rest =>
      cases entry with
      | kept text =>
          -- the first line is the same in both files, and so is what is made of it
          obtain ⟨hkinds, hinserted, _⟩ := scanner.run_padded scanner.start rest
          obtain ⟨hkindsAll, hinsertedAll, _⟩ :=
            scanner.run_padded scanner.start (.kept text :: rest)
          simp only [lines, List.map_cons, List.filterMap_cons, line, kept?, inserted?]
            at hkept hall hkindsAll hinsertedAll ⊢
          simp only [classify, hkept, hall, ↓reduceIte]
          split
          · exact ⟨congrArg (_ :: ·) hkinds, hinserted⟩
          · exact ⟨hkindsAll, hinsertedAll⟩
      | inserted text isBlank =>
          have hblank : isShebang text = false := by
            rw [← Bool.not_eq_true]
            intro hline
            rw [isBlankText_of_isShebang hline] at isBlank
            cases isBlank
          have hfirst : scanner.shebangIsCode = true →
              ∀ first ∈ (keptLines (.inserted text isBlank :: rest)).head?,
                isShebang first = false := by
            intro honoured
            exact (hshebang honoured).resolve_left fun hhead => Bool.false_ne_true (hhead _ rfl)
          have hrun := scanner.run_padded scanner.start (.inserted text isBlank :: rest)
          rw [classify_eq_run_of_head hkept hfirst, classify_eq_run_of_head hall]
          · exact ⟨hrun.1, hrun.2.1⟩
          · rintro _ _ ⟨⟩
            exact hblank

end Scanner

namespace ScannerId

open PaddedLine

/-- Blank lines make no difference to whether a file is refused. -/
theorem recognizes_lines (id : ScannerId) (padded : List PaddedLine) :
    id.scanner.recognizes (lines padded) = id.scanner.recognizes (keptLines padded) := by
  have hrefuses : id.Refuses (lines padded) ↔ id.Refuses (keptLines padded) := by
    rw [Refuses, Refuses, firstNonblank?_lines]
  rw [← recognizes_eq_false_iff, ← recognizes_eq_false_iff] at hrefuses
  rw [Bool.eq_iff_iff, ← not_iff_not, Bool.not_eq_true, Bool.not_eq_true, hrefuses]

/-- **Blank lines are transparent.** However many of them are put between the lines of a file, each
is told to be blank, and the kinds of the other lines stay what they were; in a file that is refused
no line has a kind. In front of the first line they may stand as well, unless the scanner is one
that honours `#!` and the file begins with it. And from whatever state lines are read, the scanner
is in the same state after them with blank lines in between as without. -/
theorem classify_padded (id : ScannerId) (padded : List PaddedLine)
    (hshebang : id ∈ [shell, tcl, perl, ruby] →
      (∀ first ∈ padded.head?, first.kept?.isSome) ∨
      ∀ first ∈ (keptLines padded).head?, Scanner.isShebang first = false) :
    kindsOf kept? padded (id.scanner.classify (lines padded)) =
      id.scanner.classify (keptLines padded) ∧
    (kindsOf inserted? padded (id.scanner.classify (lines padded)) =
      (insertedLines padded).map fun _ =>
        if id.scanner.recognizes (keptLines padded) then .blankLine else .unclassified) ∧
    ∀ state, (id.scanner.run state (lines padded)).2 =
      (id.scanner.run state (keptLines padded)).2 := by
  have hstate := fun state => (id.scanner.run_padded state padded).2.2
  have hsame := id.recognizes_lines padded
  cases hkept : id.scanner.recognizes (keptLines padded) with
  | false =>
      have hall := hsame.trans hkept
      simp only [Scanner.classify, hkept, hall, Bool.false_eq_true, ↓reduceIte]
      exact ⟨kindsOf_map_const _ _ _, kindsOf_map_const _ _ _, hstate⟩
  | true =>
      obtain ⟨hkinds, hinserted⟩ := Scanner.classify_padded_of_recognizes hkept
        (hsame.trans hkept) fun honoured => hshebang (id.shebangIsCode_iff.mp honoured)
      exact ⟨hkinds, hinserted, hstate⟩

/-- A script with blank lines behind its first line and in its documentation. -/
theorem classify_padded_documentation :
    let padded : List PaddedLine :=
      [.kept "#!/usr/bin/perl".toList, .inserted [] rfl, .kept "=pod".toList,
        .inserted " \t".toList (by decide), .kept "print 1;".toList, .kept "=cut".toList]
    (∀ first ∈ padded.head?, first.kept?.isSome) ∧
    kindsOf kept? padded (perl.scanner.classify (lines padded)) =
      perl.scanner.classify (keptLines padded) ∧
    perl.scanner.classify (keptLines padded) =
      [.codeLine, .commentLine, .commentLine, .commentLine] := by
  intro padded
  have hfirst : ∀ first ∈ padded.head?, first.kept?.isSome := by
    rintro _ ⟨⟩
    rfl
  exact ⟨hfirst, (classify_padded perl padded fun _ => .inl hfirst).1, by decide +kernel⟩

end ScannerId

end LineCensus
