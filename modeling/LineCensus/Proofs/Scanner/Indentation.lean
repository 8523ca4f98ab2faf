/-
# Indentation does not matter

Most languages do not care in which column a line begins or whether anything invisible
stands at its end, and neither do the scanners for them: how a line is read depends on the
line without the white space at either end. Fixed-form COBOL and Fortran are the two
exceptions, where the column is what decides.

For most scanners this is plain, because they trim a line before they look at it. The
scanner for delimited comments does not. It finds its marks at other positions in an
indented line, and it may ask what stands in front of an opener; still it comes to the same
kind and leaves the same block open, as long as its marks are free of white space and white
space in front of an opener is as good as the beginning of the line.
-/

import LineCensus.Proofs.Scanner.Position
import LineCensus.Proofs.Text.Edges

namespace LineCensus

open Text

/-! ## Delimited comments -/

namespace Delimiters

/-- Delimiters without white space in them, of which each opener counts in the same places of a
text whether or not there is white space in front of it and behind. -/
structure IgnoresEdges (d : Delimiters) : Prop where
  isSolid_lineMarker : ∀ marker ∈ d.lineMarkers, IsSolid marker
  isSolid_opener : ∀ block ∈ d.blocks, IsSolid block.opener
  isSolid_closer : ∀ block ∈ d.blocks, IsSolid block.closer
  opensAt_cons : ∀ {c}, isBlank c = true → ∀ text position opener,
    d.opensAt (c :: text) (position + 1) opener = d.opensAt text position opener
  opensAt_concat : ∀ {c}, isBlank c = true → ∀ text, ∀ position < text.length, ∀ opener,
    d.opensAt (text ++ [c]) position opener = d.opensAt text position opener

/-- Whether the closer that is carried from line to line, if any, is that of a declared block. -/
def Carries (d : Delimiters) (inside : Option (List Char)) : Prop :=
  ∀ closer ∈ inside, ∃ block ∈ d.blocks, block.closer = closer

/-- How a line goes on inside a block if one more character stands at its end. -/
def Continuation.concat (c : Char) : Continuation → Continuation
  | stillOpen => stillOpen
  | closed => closed
  | resumes rest => resumes (rest ++ [c])

variable {d : Delimiters} {c : Char}

theorem foremost?_map_later {α : Type} (marks : List (Nat × α)) :
    foremost? (marks.map later) = (foremost? marks).map later := by
  induction marks with
  | nil => rfl
  | cons mark others ih =>
      rw [List.map_cons, foremost?, ih, foremost?]
      cases foremost? others with
      | none => rfl
      | some other =>
          simp only [Option.map_some, later, Nat.add_lt_add_iff_right]
          split <;> rfl

/-- The first mark is within the text, and if it is an opener it is there as a whole. -/
theorem block_of_firstMark? {text : List Char} {position : Nat} {mark : Option Block}
    (h : d.firstMark? text = some (position, mark)) :
    position ≤ text.length ∧
    ∀ block ∈ mark, block ∈ d.blocks ∧ block.opener <+: text.drop position := by
  rcases List.mem_append.mp (mem_of_foremost? h) with hopener | hmarker
  · obtain ⟨block, hblock, hfound⟩ := List.mem_filterMap.mp hopener
    obtain ⟨found, hposition, hmark⟩ := Option.map_eq_some_iff.mp hfound
    cases hmark
    obtain ⟨place, hplace, rfl, hprefix⟩ := isPrefix_of_positionFrom? hposition
    rw [Nat.zero_add]
    refine ⟨hplace, fun block hsame => ?_⟩
    cases hsame
    exact ⟨hblock, hprefix⟩
  · obtain ⟨marker, _, hfound⟩ := List.mem_filterMap.mp hmarker
    obtain ⟨found, hposition, hmark⟩ := Option.map_eq_some_iff.mp hfound
    cases hmark
    obtain ⟨place, hplace, rfl, _⟩ := isPrefix_of_positionFrom? hposition
    rw [Nat.zero_add]
    refine ⟨hplace, fun block hsame => ?_⟩
    cases hsame

theorem carries_none (d : Delimiters) : d.Carries none := by
  intro closer hmem
  cases hmem

/-- A block that a line leaves open is one of those that are declared. -/
theorem carries_readOutside (d : Delimiters) (kind : LineKind) (text : List Char) :
    d.Carries (d.readOutside kind text).2 := by
  fun_induction d.readOutside kind text with
  | case1 | case2 | case4 | case6 => exact d.carries_none
  | case3 kind text position _ block _ hmark =>
      rintro _ ⟨⟩
      exact ⟨block, ((block_of_firstMark? hmark).2 block rfl).1, rfl⟩
  | case5 _ _ _ _ _ _ _ _ _ ih => exact ih

theorem carries_readLine {inside : Option (List Char)} (h : d.Carries inside) (line : Line) :
    d.Carries (d.readLine inside line).2 := by
  cases inside with
  | none => exact d.carries_readOutside _ _
  | some closer =>
      simp only [readLine]
      split
      · exact h
      · exact d.carries_none
      · exact d.carries_readOutside _ _

section

variable (h : d.IgnoresEdges) (hc : isBlank c = true)

include h hc

theorem firstMark?_cons_of_isBlank (text : List Char) :
    d.firstMark? (c :: text) = (d.firstMark? text).map later := by
  rw [firstMark?, firstMark?, ← foremost?_map_later, List.map_append, List.map_filterMap,
    List.map_filterMap]
  congr 2
  · refine List.filterMap_congr fun block hblock => ?_
    rw [(h.isSolid_opener block hblock).positionFrom?_cons hc
      fun position => h.opensAt_cons hc text position _, Option.map_map, Option.map_map]
    rfl
  · refine List.filterMap_congr fun marker hmarker => ?_
    rw [position?, (h.isSolid_lineMarker marker hmarker).positionFrom?_cons hc fun _ => rfl,
      Option.map_map, Option.map_map]
    rfl

theorem firstMark?_concat_of_isBlank (text : List Char) :
    d.firstMark? (text ++ [c]) = d.firstMark? text := by
  rw [firstMark?, firstMark?]
  congr 2
  · refine List.filterMap_congr fun block hblock => ?_
    rw [(h.isSolid_opener block hblock).positionFrom?_concat hc fun position hlt =>
      h.opensAt_concat hc text position (by rwa [Nat.zero_add] at hlt) _]
  · refine List.filterMap_congr fun marker hmarker => ?_
    rw [position?, (h.isSolid_lineMarker marker hmarker).positionFrom?_concat hc fun _ _ => rfl,
      position?]

end

section

variable {closer : List Char} (hcloser : IsSolid closer) (hc : isBlank c = true)

include hcloser hc

theorem throughBlock_cons_of_isBlank (text : List Char) :
    d.throughBlock closer (c :: text) = d.throughBlock closer text := by
  rw [throughBlock_cons, hcloser.startsWith_cons hc, if_neg Bool.false_ne_true]

theorem throughBlock_concat_of_isBlank (text : List Char) :
    d.throughBlock closer (text ++ [c]) = (d.throughBlock closer text).concat c := by
  have hnonempty : (text ++ [c]).isEmpty = false := by simp
  rw [throughBlock, hnonempty, if_neg Bool.false_ne_true, hcloser.after?_concat hc, throughBlock]
  cases text with
  | nil =>
      have hnone : after? closer [] = none := by rw [after?, position?_nil hcloser.1]; rfl
      rw [hnone]
      rfl
  | cons first text =>
      cases after? closer (first :: text) with
      | none => rfl
      | some rest =>
          simp only [Option.map_some, List.isEmpty_cons, Bool.false_eq_true, ↓reduceIte,
            isBlankText_concat hc, trim_concat hc]
          split <;> rfl

end

section

variable (h : d.IgnoresEdges) (hc : isBlank c = true)

include h hc

theorem readOutside_cons_of_isBlank (kind : LineKind) (text : List Char) :
    d.readOutside kind (c :: text) = d.readOutside kind text := by
  rw [readOutside, readOutside.eq_def d kind text, firstMark?_cons_of_isBlank h hc]
  cases hmark : d.firstMark? text with
  | none => simp only [Option.map_none, isBlankText_cons hc]
  | some found =>
      obtain ⟨position, mark⟩ := found
      simp only [Option.map_some, later, List.take_succ_cons, isBlankText_cons hc]
      cases mark with
      | none => rfl
      | some block =>
          obtain ⟨hblock, hprefix⟩ := (block_of_firstMark? hmark).2 block rfl
          have hopener := List.length_pos_iff.mpr (h.isSolid_opener block hblock).1
          have hfits := hprefix.length_le
          rw [List.length_drop] at hfits
          have hbehind : position + 1 + block.opener.length =
              position + block.opener.length + 1 := by omega
          simp only [hbehind, List.drop_succ_cons]
          cases hthrough : d.throughBlock block.closer (text.drop (position + block.opener.length))
            with
          | stillOpen | closed => rfl
          | resumes rest =>
              -- behind an opener there is less left to read, with or without `c`
              have hshorter := length_of_throughBlock hthrough
              rw [List.length_drop] at hshorter
              simp only [List.length_cons]
              rw [if_pos (by omega), if_pos (by omega)]

/-- Behind an opener the way on is the same, up to the character at the end. -/
theorem throughBlock_drop_concat {text : List Char} {position : Nat} {block : Block}
    (hmark : d.firstMark? text = some (position, some block)) :
    d.throughBlock block.closer ((text ++ [c]).drop (position + block.opener.length)) =
      (d.throughBlock block.closer (text.drop (position + block.opener.length))).concat c := by
  obtain ⟨hposition, hopens⟩ := block_of_firstMark? hmark
  obtain ⟨hblock, hprefix⟩ := hopens block rfl
  have hfits := hprefix.length_le
  rw [List.length_drop] at hfits
  rw [List.drop_append_of_le_length (by omega),
    throughBlock_concat_of_isBlank (h.isSolid_closer block hblock) hc]

theorem readOutside_concat_of_isBlank (kind : LineKind) (text : List Char) :
    d.readOutside kind (text ++ [c]) = d.readOutside kind text := by
  have hmarks := firstMark?_concat_of_isBlank h hc
  fun_induction d.readOutside kind text with
  | case1 kind text hmark =>
      rw [readOutside, hmarks, hmark]
      simp only [isBlankText_concat hc]
  | case2 kind text position _ hmark =>
      rw [readOutside, hmarks, hmark]
      simp only [List.take_append_of_le_length (block_of_firstMark? hmark).1]
      rfl
  | case3 kind text position _ block hthrough hmark
  | case4 kind text position _ block hthrough hmark =>
      rw [readOutside, hmarks, hmark]
      simp only [List.take_append_of_le_length (block_of_firstMark? hmark).1,
        throughBlock_drop_concat h hc hmark, hthrough, Continuation.concat]
      rfl
  | case5 kind text position _ block rest hthrough hshorter hmark ih =>
      rw [readOutside, hmarks, hmark]
      simp only [List.take_append_of_le_length (block_of_firstMark? hmark).1,
        throughBlock_drop_concat h hc hmark, hthrough, Continuation.concat, List.length_append,
        Nat.add_lt_add_iff_right, if_pos hshorter]
      exact ih
  | case6 kind text position _ block rest hthrough hlonger hmark =>
      rw [readOutside, hmarks, hmark]
      simp only [List.take_append_of_le_length (block_of_firstMark? hmark).1,
        throughBlock_drop_concat h hc hmark, hthrough, Continuation.concat, List.length_append,
        Nat.add_lt_add_iff_right, if_neg hlonger]
      rfl

end

/-- A line is read in the same way with and without the white space at its ends. -/
theorem readLine_trim (h : d.IgnoresEdges) {inside : Option (List Char)}
    (hinside : d.Carries inside) (line : Line) :
    d.readLine inside (trim line) = d.readLine inside line := by
  cases inside with
  | none =>
      exact apply_trim (fun hc text => readOutside_cons_of_isBlank h hc _ text)
        (fun hc text => readOutside_concat_of_isBlank h hc _ text) line
  | some closer =>
      obtain ⟨block, hblock, rfl⟩ := hinside closer rfl
      have hcloser := h.isSolid_closer block hblock
      refine apply_trim (fun hc text => ?_) (fun hc text => ?_) line
      · rw [readLine, throughBlock_cons_of_isBlank hcloser hc, readLine]
      · rw [readLine, throughBlock_concat_of_isBlank hcloser hc, readLine]
        cases d.throughBlock block.closer text with
        | stillOpen | closed => rfl
        | resumes rest => exact readOutside_concat_of_isBlank h hc _ rest

/-- Where every opener counts wherever it stands, only the marks themselves matter. -/
theorem ignoresEdges_of_opensAt (hopens : ∀ text position opener, d.opensAt text position opener)
    (hmarkers : ∀ marker ∈ d.lineMarkers, IsSolid marker)
    (hblocks : ∀ block ∈ d.blocks, IsSolid block.opener ∧ IsSolid block.closer) :
    d.IgnoresEdges where
  isSolid_lineMarker := hmarkers
  isSolid_opener block hblock := (hblocks block hblock).1
  isSolid_closer block hblock := (hblocks block hblock).2
  opensAt_cons _ _ _ _ := by rw [hopens, hopens]
  opensAt_concat _ _ _ _ _ := by rw [hopens, hopens]

/-- The comments of markup may begin a line of JavaScript, or follow white space on it. -/
theorem ignoresEdges_javaScript : javaScript.IgnoresEdges where
  isSolid_lineMarker := by decide
  isSolid_opener := by decide
  isSolid_closer := by decide
  opensAt_cons := by
    intro c hc text position opener
    cases position <;> simp [javaScript, hc]
  opensAt_concat := by
    intro c _ text position hposition opener
    have hbefore : (text ++ [c])[position - 1]? = text[position - 1]? :=
      List.getElem?_append_left (by omega)
    simp only [javaScript, hbefore]

end Delimiters

/-! ## Scanners in general -/

/-- A scanner that does not notice the white space at either end of a line, in any of the states
that it can come to. -/
structure Scanner.IgnoresEdges (scanner : Scanner) (known : scanner.State → Prop) : Prop where
  known_start : known scanner.start
  known_step : ∀ {state}, known state → ∀ line, known (scanner.step state line).2
  step_trim : ∀ {state}, known state → ∀ line,
    scanner.step state (trim line) = scanner.step state line
  recognizes_trim : ∀ lines, scanner.recognizes (lines.map trim) = scanner.recognizes lines

namespace Scanner

namespace IgnoresEdges

section

variable {scanner : Scanner} {known : scanner.State → Prop} (h : scanner.IgnoresEdges known)

include h

theorem run_map_trim {state : scanner.State} (hstate : known state) (lines : List Line) :
    scanner.run state (lines.map trim) = scanner.run state lines := by
  induction lines generalizing state with
  | nil => rfl
  | cons line rest ih =>
      have hline : scanner.advance state (trim line) = scanner.advance state line := by
        rw [advance, isBlankText_trim, h.step_trim hstate, advance]
      have hnext : known (scanner.advance state line).2 := by
        rw [advance]
        split
        · exact hstate
        · exact h.known_step hstate line
      rw [List.map_cons, run_cons, run_cons, hline, ih hnext]

theorem classify_map_trim (lines : List Line) :
    scanner.classify (lines.map trim) = scanner.classify lines := by
  have hrun := h.run_map_trim h.known_start
  have hknown := h.recognizes_trim lines
  cases lines with
  | nil => rfl
  | cons first rest =>
      have hfirst : isShebang (trim first) = isShebang first := by
        rw [isShebang, trim_trim, isShebang]
      have hwhole := hrun (first :: rest)
      simp only [List.map_cons] at hknown hwhole
      simp only [List.map_cons, classify, hknown, hfirst, hrun rest, hwhole, List.map_map]
      rfl

end

/-- A scanner that does not notice the white space at either end of a line in any state at all. -/
theorem of_step_trim {scanner : Scanner}
    (hstep : ∀ state line, scanner.step state (trim line) = scanner.step state line)
    (hrecognizes : ∀ lines, scanner.recognizes (lines.map trim) = scanner.recognizes lines) :
    scanner.IgnoresEdges fun _ => True where
  known_start := trivial
  known_step _ _ := trivial
  step_trim _ line := hstep _ line
  recognizes_trim := hrecognizes

/-- A scanner that trims a line before it looks at it. -/
theorem of_reads_trimmed {scanner : Scanner}
    (read : scanner.State → Line → LineKind × scanner.State)
    (hstep : ∀ state line, scanner.step state line = read state (trim line))
    (hrecognizes : ∀ lines, scanner.recognizes (lines.map trim) = scanner.recognizes lines) :
    scanner.IgnoresEdges fun _ => True :=
  of_step_trim (fun state line => by rw [hstep, trim_trim, hstep]) hrecognizes

theorem delimited {d : Delimiters} (h : d.IgnoresEdges) :
    (Scanner.delimited d).IgnoresEdges d.Carries where
  known_start := d.carries_none
  known_step {inside} hinside line := by
    simp only [Scanner.delimited]
    split
    · exact d.carries_none
    · exact Delimiters.carries_readLine hinside line
  step_trim {inside} hinside line := by
    simp only [Scanner.delimited, trim_trim, Delimiters.readLine_trim h hinside]
  recognizes_trim _ := rfl

theorem commentless : Scanner.commentless.IgnoresEdges fun _ => True :=
  of_reads_trimmed (fun _ _ => (.codeLine, ())) (fun _ _ => rfl) fun _ => rfl

theorem prefixed (markers : List (List Char)) (shebangIsCode : Bool) :
    (Scanner.prefixed markers shebangIsCode).IgnoresEdges fun _ => True :=
  of_reads_trimmed
    (fun _ line => (if startsWithAny markers line then .commentLine else .codeLine, ()))
    (fun _ _ => rfl) fun _ => rfl

theorem perl : Scanner.perl.IgnoresEdges fun _ => True :=
  of_step_trim (fun _ line => by simp only [Scanner.perl, trim_trim]) fun _ => rfl

theorem ruby : Scanner.ruby.IgnoresEdges fun _ => True :=
  of_step_trim (fun _ line => by simp only [Scanner.ruby, trim_trim]) fun _ => rfl

/-- The first word of a line is free of the white space around it. -/
theorem firstWord_trim (line : Line) : firstWord (trim line) = firstWord line := by
  refine apply_trim (fun hc text => ?_) (fun {c} hc text => ?_) line
  · rw [firstWord, trimLeft_cons hc, firstWord]
  · have hlast : [c].takeWhile (fun c => !isBlank c) = [] := by simp [hc]
    rw [firstWord, trimLeft_concat hc, firstWord]
    cases htext : isBlankText text with
    | true =>
        rw [trimLeft_of_isBlankText htext]
        rfl
    | false =>
        rw [if_neg Bool.false_ne_true, List.takeWhile_append, hlast, List.append_nil]
        split
        · next hall => exact ((List.takeWhile_prefix _).eq_of_length hall).symm
        · rfl

theorem batch : Scanner.batch.IgnoresEdges fun _ => True :=
  of_step_trim (fun _ line => by
    simp only [Scanner.batch, Scanner.stateless, trim_trim, firstWord_trim]) fun _ => rfl

theorem isProcedureLine_trim (line : Line) :
    Dcl.isProcedureLine (trim line) = Dcl.isProcedureLine line := by
  refine apply_trim (fun hc text => ?_) (fun {c} hc text => ?_) line
  · rw [Dcl.isProcedureLine, trimLeft_cons hc, Dcl.isProcedureLine]
  · have hdollar : IsSolid ['$'] := by decide
    have hmark : IsSolid ['!'] := by decide
    rw [Dcl.isProcedureLine, trimLeft_concat hc, Dcl.isProcedureLine]
    cases htext : isBlankText text with
    | true =>
        rw [trimLeft_of_isBlankText htext]
        rfl
    | false =>
        simp only [Bool.false_eq_true, ↓reduceIte, startsWithAny, List.any_cons, List.any_nil,
          hdollar.startsWith_concat hc, hmark.startsWith_concat hc]

theorem dcl : Scanner.dcl.IgnoresEdges fun _ => True := by
  refine of_reads_trimmed
    (fun _ line => (if Dcl.isComment line then .commentLine else .codeLine, ()))
    (fun _ _ => rfl) fun lines => ?_
  have hfirst : firstNonblank? (lines.map trim) = (firstNonblank? lines).map trim := by
    rw [firstNonblank?, List.find?_map, firstNonblank?]
    simp only [Function.comp_def, isBlankText_trim]
  show (firstNonblank? (lines.map trim)).all Dcl.isProcedureLine =
    (firstNonblank? lines).all Dcl.isProcedureLine
  rw [hfirst]
  cases firstNonblank? lines with
  | none => rfl
  | some line => exact isProcedureLine_trim line

end IgnoresEdges

end Scanner

/-! ## The scanners by name -/

namespace ScannerId

/-- All scanners but two read a line without the white space at its ends. -/
theorem exists_ignoresEdges {id : ScannerId} (h : id ∉ [cobol, fortranFixed]) :
    ∃ known, id.scanner.IgnoresEdges known := by
  cases id with
  | cobol | fortranFixed => exact absurd (by decide) h
  | algol => exact ⟨_, .of_reads_trimmed Algol.readLine (fun _ _ => rfl) fun _ => rfl⟩
  | batch => exact ⟨_, .batch⟩
  | dcl => exact ⟨_, .dcl⟩
  | fortranFree =>
      refine ⟨_, .of_reads_trimmed (fun _ line => (Scanner.exclamationKind line, ()))
        (fun _ line => ?_) fun _ => rfl⟩
      simp [scanner, Scanner.fortranFree, Scanner.stateless, Scanner.exclamationKind]
  | pascal => exact ⟨_, .of_reads_trimmed Pascal.readLine (fun _ _ => rfl) fun _ => rfl⟩
  | perl => exact ⟨_, .perl⟩
  | python => exact ⟨_, .of_reads_trimmed Docstring.readLine (fun _ _ => rfl) fun _ => rfl⟩
  | ruby => exact ⟨_, .ruby⟩
  | generic | json | rst => exact ⟨_, .commentless⟩
  | assembly | cmake | dockerfile | ini | makefile | mdhavers | shell | tcl | toml | yaml =>
      exact ⟨_, .prefixed _ _⟩
  | javascript => exact ⟨_, .delimited Delimiters.ignoresEdges_javaScript⟩
  | cstyle | hcl | iplan | mustache | php | powershell | rust | velocity | xml =>
      exact ⟨_, .delimited (Delimiters.ignoresEdges_of_opensAt (fun _ _ _ => rfl) (by decide)
        (by decide))⟩

/-- **Indentation does not matter.** Outside the two column formats, lines that differ in nothing
but the white space at their ends are of the same kinds, whatever is carried from line to line. -/
theorem classify_eq_of_map_trim_eq {id : ScannerId} (hid : id ∉ [cobol, fortranFixed])
    {lines others : List Line} (h : lines.map trim = others.map trim) :
    id.scanner.classify lines = id.scanner.classify others := by
  obtain ⟨known, hedges⟩ := exists_ignoresEdges hid
  rw [← hedges.classify_map_trim, h, hedges.classify_map_trim]

/-- A comment of markup in a script, with and without white space in front of its two ends. -/
theorem classify_eq_of_map_trim_eq_markup :
    let lines : List Line := ["  <!-- a".toList, "".toList, "	b --> c  ".toList]
    let others : List Line := ["<!-- a 　".toList, "  ".toList, "b --> c".toList]
    javascript ∉ [cobol, fortranFixed] ∧ lines.map trim = others.map trim ∧
    javascript.scanner.classify lines = javascript.scanner.classify others ∧
    javascript.scanner.classify others = [.commentLine, .blankLine, .mixedLine] := by
  intro lines others
  have hid : javascript ∉ [cobol, fortranFixed] := by decide
  have htrim : lines.map trim = others.map trim := by decide +kernel
  exact ⟨hid, htrim, classify_eq_of_map_trim_eq hid htrim, by decide +kernel⟩

/-- On a card the column decides. -/
example : cobol.scanner.classify ["      * A".toList] = [.commentLine] ∧
    cobol.scanner.classify ["* A".toList] = [.codeLine] := by decide +kernel

end ScannerId

end LineCensus
