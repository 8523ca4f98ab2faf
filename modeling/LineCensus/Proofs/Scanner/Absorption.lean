/-
# What stays in a comment that has closed

After a block comment closes, the rest of its line can stay part of the comment: nothing of
it is read if it begins with one of certain texts. This module shows when that makes a
difference. It makes none if each of these texts begins a line comment anyway, and if
no block can be opened in its place. Then the line comment is what a reader comes to first,
with nothing but white space in front, and it takes the rest of the line all the same.

So of the languages of the library the rule concerns a single one, the one in which such a text
begins no line comment of its own.
-/

import LineCensus.Proofs.Scanner.Openers

namespace LineCensus.Delimiters

open Text

/-- The same delimiters, with nothing that keeps the rest of a line in a comment which has
closed. -/
def withoutAbsorption (d : Delimiters) : Delimiters :=
  { d with absorbAfterClose := [] }

/-- Whether a text begins with something other than white space. -/
def BeginsSolid (text : List Char) : Prop :=
  text.head?.any (!isBlank ·) = true

instance : DecidablePred BeginsSolid := fun text =>
  inferInstanceAs (Decidable (text.head?.any (!isBlank ·) = true))

/-- Delimiters that keep the rest of a line in a comment only where it would be a line comment. -/
structure AbsorbsMarkersOnly (d : Delimiters) : Prop where
  mem_lineMarkers : ∀ absorbed ∈ d.absorbAfterClose, absorbed ∈ d.lineMarkers
  opener_beginsSolid : ∀ block ∈ d.blocks, BeginsSolid block.opener
  /-- No opener and no text that keeps the rest of a line begin in the same place. -/
  apart : ∀ block ∈ d.blocks, ∀ absorbed ∈ d.absorbAfterClose,
    ¬ block.opener <+: absorbed ∧ ¬ absorbed <+: block.opener

theorem absorbsMarkersOnly_iff (d : Delimiters) :
    d.AbsorbsMarkersOnly ↔
      (∀ absorbed ∈ d.absorbAfterClose, absorbed ∈ d.lineMarkers) ∧
      (∀ block ∈ d.blocks, BeginsSolid block.opener) ∧
      ∀ block ∈ d.blocks, ∀ absorbed ∈ d.absorbAfterClose,
        ¬ block.opener <+: absorbed ∧ ¬ absorbed <+: block.opener :=
  ⟨fun h => ⟨h.mem_lineMarkers, h.opener_beginsSolid, h.apart⟩, fun ⟨hmem, hsolid, hapart⟩ =>
    ⟨hmem, hsolid, hapart⟩⟩

instance : DecidablePred AbsorbsMarkersOnly := fun d =>
  decidable_of_iff _ d.absorbsMarkersOnly_iff.symm

variable {d : Delimiters}

theorem BeginsSolid.startsWith_cons {opener : List Char} (h : BeginsSolid opener) {c : Char}
    (hc : isBlank c = true) (rest : List Char) : startsWith opener (c :: rest) = false := by
  rw [BeginsSolid, Option.any_eq_true] at h
  obtain ⟨first, hfirst, hsolid⟩ := h
  apply startsWith_cons_eq_false hfirst
  rintro rfl
  rw [hc] at hsolid
  cases hsolid

/-! ## What a reader comes to first -/

/-- Where no opener begins there is a line comment or nothing. -/
theorem markBehind?_of_no_opener {ahead : List Char}
    (h : ∀ block ∈ d.blocks, startsWith block.opener ahead = false) (seen : List Char) :
    d.markBehind? seen ahead = none ∨ d.markBehind? seen ahead = some none := by
  cases hmark : d.markBehind? seen ahead with
  | none => exact .inl rfl
  | some mark =>
      cases mark with
      | none => exact .inr rfl
      | some block =>
          obtain ⟨found, hfound, hblock⟩ := Option.map_eq_some_iff.mp hmark
          have hdeclared := mem_blocks_of_mem_marks (List.mem_of_find?_eq_some hfound) hblock
          have hstarts := startsWith_opener_of_markBehind? hmark
          rw [h block hdeclared.1] at hstarts
          cases hstarts

/-- A line marker counts wherever it stands. -/
theorem markBehind?_ne_none {marker ahead : List Char} (hmarker : marker ∈ d.lineMarkers)
    (hstarts : startsWith marker ahead = true) (seen : List Char) :
    d.markBehind? seen ahead ≠ none := by
  rw [markBehind?, Ne, Option.map_eq_none_iff, List.find?_eq_none]
  intro hnone
  have hmark : (marker, none) ∈ d.marks :=
    List.mem_append_right _ (List.mem_map.mpr ⟨marker, hmarker, rfl⟩)
  apply hnone _ hmark
  rw [hstarts]
  rfl

namespace AbsorbsMarkersOnly

variable (h : d.AbsorbsMarkersOnly)

include h

/-- In front of a text that keeps the rest of a line there is a line comment. -/
theorem markBehind?_of_absorbed {absorbed ahead : List Char}
    (habsorbed : absorbed ∈ d.absorbAfterClose) (hahead : absorbed <+: ahead) (seen : List Char) :
    d.markBehind? seen ahead = some none := by
  have hopeners : ∀ block ∈ d.blocks, startsWith block.opener ahead = false := by
    intro block hblock
    rw [← Bool.not_eq_true, startsWith_iff_isPrefix]
    intro hopener
    -- of two texts that begin the same text, one begins the other
    obtain ⟨hlonger, hshorter⟩ := h.apart block hblock absorbed habsorbed
    exact (List.prefix_or_prefix_of_prefix hopener hahead).elim hlonger hshorter
  apply (markBehind?_of_no_opener hopeners seen).resolve_left
  exact markBehind?_ne_none (h.mem_lineMarkers absorbed habsorbed)
    (startsWith_iff_isPrefix.mpr hahead) seen

/-- With white space in front the line comment may only begin earlier. -/
theorem firstMarkBehind?_of_absorbed {absorbed ahead : List Char}
    (habsorbed : absorbed ∈ d.absorbAfterClose) (hahead : absorbed <+: ahead) (hne : ahead ≠ [])
    {before : List Char} (hbefore : isBlankText before = true) (seen : List Char) :
    ∃ position, d.firstMarkBehind? seen (before ++ ahead) = some (seen.length + position, none) ∧
      isBlankText ((before ++ ahead).take position) = true := by
  induction before generalizing seen with
  | nil =>
      obtain ⟨c, rest, rfl⟩ := List.exists_cons_of_ne_nil hne
      refine ⟨0, ?_, rfl⟩
      rw [List.nil_append, firstMarkBehind?_cons, h.markBehind?_of_absorbed habsorbed hahead]
      rfl
  | cons c before ih =>
      rw [isBlankText, List.all_cons, Bool.and_eq_true] at hbefore
      obtain ⟨hc, hbefore⟩ := hbefore
      have hopeners : ∀ block ∈ d.blocks,
          startsWith block.opener (c :: (before ++ ahead)) = false :=
        fun block hblock => (h.opener_beginsSolid block hblock).startsWith_cons hc _
      rw [List.cons_append, firstMarkBehind?_cons]
      rcases markBehind?_of_no_opener hopeners seen with hnone | hmarker
      · obtain ⟨position, hmark, hblank⟩ := ih hbefore (seen ++ [c])
        refine ⟨position + 1, ?_, ?_⟩
        · rw [hnone, List.length_append, List.length_singleton, Nat.add_right_comm] at *
          exact hmark
        · rw [List.take_succ_cons, isBlankText_cons hc]
          exact hblank
      · exact ⟨0, by rw [hmarker]; rfl, rfl⟩

/-- What stays in a comment that has closed is read as a line comment. -/
theorem firstMark?_of_absorbed {rest : List Char} (hrest : isBlankText rest = false)
    (habsorbed : startsWithAny d.absorbAfterClose (trim rest) = true) :
    ∃ position, d.firstMark? rest = some (position, none) ∧
      isBlankText (rest.take position) = true := by
  obtain ⟨absorbed, hmem, hstarts⟩ := List.any_eq_true.mp habsorbed
  obtain ⟨before, after, hbefore, _, htext⟩ := exists_eq_append_trim rest
  have hne : trim rest ≠ [] := by rwa [← List.isEmpty_eq_false_iff, isEmpty_trim]
  have hahead : absorbed <+: trim rest ++ after :=
    (startsWith_iff_isPrefix.mp hstarts).trans (List.prefix_append _ _)
  obtain ⟨position, hmark, hblank⟩ := h.firstMarkBehind?_of_absorbed hmem hahead
    (List.append_ne_nil_of_left_ne_nil hne after) hbefore []
  rw [← List.append_assoc, ← htext] at hmark hblank
  refine ⟨position, ?_, hblank⟩
  rw [firstMark?_eq_firstMarkBehind?, hmark, List.length_nil, Nat.zero_add]

end AbsorbsMarkersOnly

/-! ## Both ways to go on -/

/-- Without absorption a block goes on or ends in the same place, but more may be read behind it. -/
theorem throughBlock_withoutAbsorption (d : Delimiters) (closer text : List Char) :
    d.withoutAbsorption.throughBlock closer text = d.throughBlock closer text ∨
    ∃ rest, d.throughBlock closer text = .closed ∧
      d.withoutAbsorption.throughBlock closer text = .resumes rest ∧
      isBlankText rest = false ∧ startsWithAny d.absorbAfterClose (trim rest) = true := by
  have hnothing (rest : List Char) :
      startsWithAny d.withoutAbsorption.absorbAfterClose rest = false := rfl
  simp only [throughBlock, hnothing, Bool.or_false]
  cases text.isEmpty with
  | true => exact .inl rfl
  | false =>
      cases after? closer text with
      | none => exact .inl rfl
      | some rest =>
          simp only [Bool.false_eq_true, ↓reduceIte]
          cases hrest : isBlankText rest with
          | true => exact .inl rfl
          | false =>
              cases habsorbed : startsWithAny d.absorbAfterClose (trim rest) with
              | true => exact .inr ⟨rest, rfl, rfl, hrest, habsorbed⟩
              | false => exact .inl rfl

theorem throughBlock_withoutAbsorption_of_ne {closer text : List Char} {found : Continuation}
    (h : d.throughBlock closer text = found) (hne : found ≠ .closed) :
    d.withoutAbsorption.throughBlock closer text = found := by
  rcases d.throughBlock_withoutAbsorption closer text with hsame | ⟨_, hclosed, _⟩
  · exact hsame.trans h
  · exact absurd (h.symm.trans hclosed) hne

namespace AbsorbsMarkersOnly

variable (h : d.AbsorbsMarkersOnly)

include h

/-- To read on in a line that is a comment already finds nothing new in what stays in it. -/
theorem readOutside_of_absorbed {rest : List Char} (hrest : isBlankText rest = false)
    (habsorbed : startsWithAny d.absorbAfterClose (trim rest) = true) {kind : LineKind}
    (hkind : kind.withComment = kind) :
    d.withoutAbsorption.readOutside kind rest = (kind, none) := by
  obtain ⟨position, hmark, hblank⟩ := h.firstMark?_of_absorbed hrest habsorbed
  have hsame : d.withoutAbsorption.firstMark? rest = some (position, none) := hmark
  have hnocode : kind.withCode (!true) = kind := by simp [LineKind.withCode]
  rw [readOutside, hsame]
  simp only [hblank, hnocode, hkind]

/-- To go round once more instead of stopping behind a block makes no difference to the answer. -/
theorem readOutside_withoutAbsorption (kind : LineKind) (text : List Char) :
    d.withoutAbsorption.readOutside kind text = d.readOutside kind text := by
  have hmarks (text : List Char) : d.withoutAbsorption.firstMark? text = d.firstMark? text := rfl
  fun_induction d.readOutside kind text with
  | case1 kind text hmark => rw [readOutside, hmarks, hmark]
  | case2 kind text position _ hmark => rw [readOutside, hmarks, hmark]
  | case3 kind text position marked block hthrough hmark =>
      have hsame := throughBlock_withoutAbsorption_of_ne hthrough (by simp)
      rw [readOutside, hmarks, hmark]
      simp only [hsame]
      rfl
  | case4 kind text position marked block hthrough hmark =>
      rw [readOutside, hmarks, hmark]
      rcases d.throughBlock_withoutAbsorption block.closer
        (text.drop (position + block.opener.length)) with
          hsame | ⟨rest, _, hresumes, hrest, habsorbed⟩
      · simp only [hsame, hthrough]
        rfl
      · have hnothing : d.withoutAbsorption.readOutside marked rest = (marked, none) :=
          h.readOutside_of_absorbed hrest habsorbed rfl
        simp only [hresumes]
        split
        · exact hnothing
        · rfl
  | case5 kind text position marked block rest hthrough hshorter hmark ih =>
      have hsame := throughBlock_withoutAbsorption_of_ne hthrough (by simp)
      rw [readOutside, hmarks, hmark]
      simp only [hsame, hshorter, ↓reduceIte]
      exact ih
  | case6 kind text position marked block rest hthrough hlonger hmark =>
      have hsame := throughBlock_withoutAbsorption_of_ne hthrough (by simp)
      rw [readOutside, hmarks, hmark]
      simp only [hsame, hlonger, ↓reduceIte]
      rfl

theorem readLine_withoutAbsorption (inside : Option (List Char)) (line : Line) :
    d.withoutAbsorption.readLine inside line = d.readLine inside line := by
  cases inside with
  | none => exact h.readOutside_withoutAbsorption .unclassified line
  | some closer =>
      rw [readLine, readLine]
      rcases d.throughBlock_withoutAbsorption closer line with
        hsame | ⟨rest, hclosed, hresumes, hrest, habsorbed⟩
      · simp only [hsame, h.readOutside_withoutAbsorption]
      · simp only [hclosed, hresumes]
        exact h.readOutside_of_absorbed hrest habsorbed rfl

/-- Nothing is left of the rule, neither for the kinds of lines nor for what is carried. -/
theorem delimited_withoutAbsorption :
    Scanner.delimited d.withoutAbsorption = Scanner.delimited d := by
  have hread : d.withoutAbsorption.readLine = d.readLine := by
    funext inside line
    exact h.readLine_withoutAbsorption inside line
  rw [Scanner.delimited, Scanner.delimited, hread]
  rfl

end AbsorbsMarkersOnly

/-! ## The languages of the library -/

/-- The scanners of the library that read delimited comments, with the delimiters of each. -/
def delimitedScanners : List (ScannerId × Delimiters) :=
  [(.cstyle, cStyle), (.rust, rust), (.javascript, javaScript), (.php, php), (.hcl, hcl),
   (.velocity, velocity), (.iplan, iplan), (.xml, markup), (.mustache, mustache),
   (.powershell, powerShell)]

theorem scanner_of_mem_delimitedScanners {id : ScannerId} {d : Delimiters}
    (h : (id, d) ∈ delimitedScanners) : id.scanner = Scanner.delimited d := by
  simp only [delimitedScanners, List.mem_cons, Prod.mk.injEq, List.not_mem_nil, or_false] at h
  rcases h with ⟨rfl, rfl⟩ | ⟨rfl, rfl⟩ | ⟨rfl, rfl⟩ | ⟨rfl, rfl⟩ | ⟨rfl, rfl⟩ | ⟨rfl, rfl⟩ |
    ⟨rfl, rfl⟩ | ⟨rfl, rfl⟩ | ⟨rfl, rfl⟩ | ⟨rfl, rfl⟩ <;> rfl

/-- What keeps the rest of a line in a comment is a line comment in all languages but one. -/
theorem absorbsMarkersOnly_of_mem : ∀ named ∈ delimitedScanners, named.1 ≠ .iplan →
    named.2.AbsorbsMarkersOnly := by
  decide

/-- **Where it matters what stays in a comment.** Let each text that keeps the rest of a line in a
comment which has closed be a line marker. Let each opener begin with something other than white
space, and let it neither begin such a text nor be begun by one. Then every file has the same kinds
without these texts, also if some openers count in some places only and some lines are decided as a
whole. In the library this is so of all languages with delimited comments but one, and in that one
the texts do make a difference. -/
theorem classify_withoutAbsorption :
    (∀ d : Delimiters, d.AbsorbsMarkersOnly → ∀ lines,
      (Scanner.delimited d.withoutAbsorption).classify lines =
        (Scanner.delimited d).classify lines) ∧
    ∀ id d, (id, d) ∈ delimitedScanners →
      id.scanner = Scanner.delimited d ∧
      ((∀ lines, (Scanner.delimited d.withoutAbsorption).classify lines =
        id.scanner.classify lines) ↔ id ≠ .iplan) := by
  refine ⟨fun d h lines => by rw [h.delimited_withoutAbsorption], fun id d hmem => ?_⟩
  have hscanner := scanner_of_mem_delimitedScanners hmem
  refine ⟨hscanner, fun hsame => ?_, fun hother lines => ?_⟩
  · rintro rfl
    -- this is code if it is not part of the comment in front of it
    have hlines := hsame ["/* a */ ! b".toList]
    have hd : d = iplan := by simpa [delimitedScanners] using hmem
    rw [hd] at hlines
    exact absurd hlines (by decide +kernel)
  · rw [hscanner, (absorbsMarkersOnly_of_mem _ hmem hother).delimited_withoutAbsorption]

/-- Line comments that begin with two dashes or with a tabulator, behind a block that has closed. -/
theorem classify_withoutAbsorption_of_dashes :
    let d : Delimiters :=
      { lineMarkers := [['-', '-'], ['\t']], blocks := [⟨['(', '*'], ['*', ')']⟩],
        absorbAfterClose := [['-', '-']] }
    let lines : List Line := ["(* a *) \t-- b".toList, "(* c *) d -- e".toList]
    d.AbsorbsMarkersOnly ∧
    (Scanner.delimited d.withoutAbsorption).classify lines =
      (Scanner.delimited d).classify lines ∧
    (Scanner.delimited d).classify lines = [.commentLine, .mixedLine] := by
  intro d lines
  have hmarkers : d.AbsorbsMarkersOnly := by decide
  exact ⟨hmarkers, classify_withoutAbsorption.1 d hmarkers lines, by decide +kernel⟩

end LineCensus.Delimiters
