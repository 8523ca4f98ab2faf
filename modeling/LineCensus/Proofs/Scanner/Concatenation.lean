/-
# Concatenation adds up

All that the lines of a file can tell about those after them is the state that the
scanner carries over. Where that is the state it started in, the lines after are
classified as if they were a file of their own. Two things that belong to a whole file
could still tell the difference: the first line, which may be code because it begins
with `#!`, and the refusal of a file as a whole. With neither in the way, two files
one after the other have the kinds of the first and then those of the second.
-/

import LineCensus.Proofs.Scanner.Classification

namespace LineCensus

open Text

namespace Scanner

/-- What is known after the lines of a file. A first line that is code because it begins with `#!`
tells nothing about those after it. -/
def carried (scanner : Scanner) : List Line → scanner.State
  | [] => scanner.start
  | first :: rest =>
    if scanner.shebangIsCode && isShebang first then (scanner.run scanner.start rest).2
    else (scanner.run scanner.start (first :: rest)).2

@[simp]
theorem classify_nil (scanner : Scanner) : scanner.classify [] = [] := by
  simp [classify]

section

variable {scanner : Scanner} {first second : List Line}

/-- Behind the first line of a file only the state matters to those that follow. -/
theorem classify_append_eq_run (hfirst : scanner.recognizes first = true)
    (hboth : scanner.recognizes (first ++ second) = true) (hne : first ≠ []) :
    scanner.classify (first ++ second) =
      scanner.classify first ++ (scanner.run (scanner.carried first) second).1 := by
  cases first with
  | nil => exact absurd rfl hne
  | cons line rest =>
      rw [List.cons_append] at hboth
      simp only [List.cons_append, classify, hfirst, hboth, ↓reduceIte, carried]
      split
      · rw [run_append, List.cons_append]
      · rw [← List.cons_append, run_append]

/-- A file that does not begin with `#!` is read like any lines. -/
theorem classify_eq_run_of_head (hfirst : scanner.recognizes first = true)
    (hshebang : scanner.shebangIsCode = true → ∀ line ∈ first.head?, isShebang line = false) :
    scanner.classify first = (scanner.run scanner.start first).1 := by
  cases first with
  | nil => exact classify_nil scanner
  | cons line rest =>
      simp only [classify, hfirst, ↓reduceIte]
      refine if_neg fun hcode => ?_
      obtain ⟨honoured, hline⟩ := Bool.and_eq_true_iff.mp hcode
      rw [hshebang honoured line rfl] at hline
      cases hline

/-- The kind of a line depends on what is known in front of it. -/
theorem getElem?_run_append_cons (scanner : Scanner) (state : scanner.State)
    (before : List Line) (line : Line) (after : List Line) :
    (scanner.run state (before ++ line :: after)).1[before.length]? =
      some (scanner.advance (scanner.run state before).2 line).1 := by
  have hlength := length_run scanner state before
  rw [run_append, run_cons]
  dsimp only
  rw [List.getElem?_append_right hlength.le, hlength, Nat.sub_self, List.getElem?_cons_zero]

/-- What is carried by a scanner that has no rule for a line that begins with `#!`. -/
theorem carried_eq_run (hshebang : scanner.shebangIsCode = false) (lines : List Line) :
    scanner.carried lines = (scanner.run scanner.start lines).2 := by
  cases lines <;> simp [carried, hshebang]

theorem carried_concat (hshebang : scanner.shebangIsCode = false) (lines : List Line) (line : Line) :
    scanner.carried (lines ++ [line]) = (scanner.advance (scanner.carried lines) line).2 := by
  rw [carried_eq_run hshebang, carried_eq_run hshebang, run_append, run_cons]
  rfl

/-- Without rules for the start of a file, too, the kind of a line depends on what is known in front
of it. -/
theorem getElem?_classify_append_cons (hknown : scanner.recognizes = fun _ => true)
    (hshebang : scanner.shebangIsCode = false) (before : List Line) (line : Line)
    (after : List Line) :
    (scanner.classify (before ++ line :: after))[before.length]? =
      some (scanner.advance (scanner.carried before) line).1 := by
  rw [carried_eq_run hshebang, ← getElem?_run_append_cons, classify_eq_run_of_head (by rw [hknown])
    (fun honoured => absurd (hshebang.symm.trans honoured) Bool.false_ne_true)]

/-- Without such rules what follows is read from the state that is carried to it. -/
theorem classify_append_run (hknown : scanner.recognizes = fun _ => true)
    (hshebang : scanner.shebangIsCode = false) (first second : List Line) :
    scanner.classify (first ++ second) =
      scanner.classify first ++ (scanner.run (scanner.carried first) second).1 := by
  by_cases hempty : first = []
  · subst hempty
    rw [classify_nil, List.nil_append, List.nil_append, classify_eq_run_of_head (by rw [hknown])
      fun honoured => absurd (hshebang.symm.trans honoured) Bool.false_ne_true]
    rfl
  · exact classify_append_eq_run (by rw [hknown]) (by rw [hknown]) hempty

/-- Two files one after the other, if the first leaves the scanner as it found it. -/
theorem classify_append (hfirst : scanner.recognizes first = true)
    (hsecond : scanner.recognizes second = true)
    (hboth : scanner.recognizes (first ++ second) = true)
    (hcarried : scanner.carried first = scanner.start)
    (hshebang : scanner.shebangIsCode = true →
      first = [] ∨ ∀ line ∈ second.head?, isShebang line = false) :
    scanner.classify (first ++ second) = scanner.classify first ++ scanner.classify second := by
  by_cases hempty : first = []
  · subst hempty
    rw [List.nil_append, classify_nil, List.nil_append]
  · rw [classify_append_eq_run hfirst hboth hempty, hcarried,
      classify_eq_run_of_head hsecond fun honoured => (hshebang honoured).resolve_left hempty]

end

end Scanner

namespace ScannerId

/-- The scanners that honour a first line that begins with `#!`. -/
theorem shebangIsCode_iff (id : ScannerId) :
    id.scanner.shebangIsCode = true ↔ id ∈ [shell, tcl, perl, ruby] := by
  cases id <;> decide

/-- A file begins with what is in front, unless nothing in front holds anything. -/
theorem refuses_append {id : ScannerId} {first second : List Line}
    (h : id.Refuses (first ++ second)) : id.Refuses first ∨ id.Refuses second := by
  obtain ⟨hdcl, line, hfound, hline⟩ := h
  rw [firstNonblank?, List.find?_append, Option.or_eq_some_iff] at hfound
  rcases hfound with hfirst | ⟨_, hsecond⟩
  · exact .inl ⟨hdcl, line, hfirst, hline⟩
  · exact .inr ⟨hdcl, line, hsecond, hline⟩

theorem recognizes_of_not_refuses {id : ScannerId} {lines : List Line} (h : ¬ id.Refuses lines) :
    id.scanner.recognizes lines = true := by
  rwa [← recognizes_eq_false_iff, Bool.not_eq_false] at h

/-- **Concatenation adds up.** If the first of two files leaves its scanner in the state it started
in, and neither is refused, both together are classified as each by itself is, and their statistics
are the sum. Where a first line that begins with `#!` is honoured the second file must not have
one, unless there is nothing in front of it. -/
theorem classify_and_scan_append (id : ScannerId) (first second : List Line)
    (hcarried : id.scanner.carried first = id.scanner.start)
    (hshebang : id ∈ [shell, tcl, perl, ruby] →
      first = [] ∨ ∀ line ∈ second.head?, Scanner.isShebang line = false)
    (hfirst : ¬ id.Refuses first) (hsecond : ¬ id.Refuses second) :
    id.scanner.classify (first ++ second) =
      id.scanner.classify first ++ id.scanner.classify second ∧
    id.scanner.scan (first ++ second) = (id.scanner.scan first).merge (id.scanner.scan second) := by
  have hkinds : id.scanner.classify (first ++ second) =
      id.scanner.classify first ++ id.scanner.classify second :=
    Scanner.classify_append (recognizes_of_not_refuses hfirst) (recognizes_of_not_refuses hsecond)
      (recognizes_of_not_refuses fun h => (refuses_append h).elim hfirst hsecond) hcarried
      fun honoured => hshebang (id.shebangIsCode_iff.mp honoured)
  refine ⟨hkinds, ?_⟩
  rw [Scanner.scan, hkinds, LineStats.ofKinds_append, Scanner.scan, Scanner.scan]

/-- A script whose documentation is closed, and another one after it. -/
theorem classify_and_scan_append_after_documentation :
    let first := ["#!/usr/bin/perl".toList, "=pod".toList, "text".toList, "=cut".toList]
    let second := ["print 1;".toList, "# done".toList]
    perl.scanner.carried first = perl.scanner.start ∧
    (∀ line ∈ second.head?, Scanner.isShebang line = false) ∧
    perl.scanner.classify (first ++ second) =
      perl.scanner.classify first ++ perl.scanner.classify second ∧
    perl.scanner.scan (first ++ second) =
      (perl.scanner.scan first).merge (perl.scanner.scan second) := by
  intro first second
  have hcarried : perl.scanner.carried first = perl.scanner.start := by rfl
  have hshebang : ∀ line ∈ second.head?, Scanner.isShebang line = false := by decide +kernel
  exact ⟨hcarried, hshebang, classify_and_scan_append perl first second hcarried
    (fun _ => .inr hshebang) (fun h => nomatch h.1) fun h => nomatch h.1⟩

end ScannerId

end LineCensus
