/-
# Code that goes on over the end of its line

In Python a line of code that ends in a backslash goes on in the next one. A string in
triple quotes that begins a line is then part of that code and no comment. The scanner keeps
a flag for this from one line to the next. This module says what the flag knows: whether
the last line that held code held nothing else and ended in a backslash.

A line may also hold code behind the closing quotes of a string. Such a line does not set the
flag, whatever it ends in. So a string that begins the next line of code is taken for a
comment although the code in front of it goes on, and there is no other case in which
the flag is wrong about the last line of code.
-/

import LineCensus.Proofs.Scanner.Concatenation

namespace LineCensus.Docstring

open Text

/-- Whether a line ends in a backslash, apart from white space. -/
def EndsInBackslash (line : Line) : Prop :=
  endsWith ['\\'] (trim line) = true

instance : DecidablePred EndsInBackslash := fun line =>
  inferInstanceAs (Decidable (endsWith ['\\'] (trim line) = true))

/-- The last of several lines that holds code, with its kind. There may be kinds of further lines
behind theirs. -/
def lastCode? (lines : List Line) (kinds : List LineKind) : Option (Line × LineKind) :=
  ((lines.zip kinds).filter (·.2.code)).getLast?

/-- Whether the last line that holds code is of a certain kind and ends in a backslash. -/
def Continues (lines : List Line) (kinds : List LineKind) (kind : LineKind) : Prop :=
  ∃ line, lastCode? lines kinds = some (line, kind) ∧ EndsInBackslash line

instance (lines : List Line) (kinds : List LineKind) (kind : LineKind) :
    Decidable (Continues lines kinds kind) :=
  decidable_of_iff (∃ found ∈ lastCode? lines kinds, found.2 = kind ∧ EndsInBackslash found.1) <| by
    constructor
    · rintro ⟨⟨line, _⟩, hfound, rfl, hends⟩
      exact ⟨line, hfound, hends⟩
    · rintro ⟨line, hfound, hends⟩
      exact ⟨(line, kind), hfound, rfl, hends⟩

/-! ## The last line of code -/

section

variable {lines : List Line} {kinds : List LineKind} (hlength : lines.length = kinds.length)

include hlength

theorem lastCode?_concat (line : Line) (kind : LineKind) :
    lastCode? (lines ++ [line]) (kinds ++ [kind]) =
      if kind.code then some (line, kind) else lastCode? lines kinds := by
  rw [lastCode?, List.zip_append hlength, List.filter_append]
  cases hcode : kind.code with
  | true => simp [hcode]
  | false => simp [hcode, lastCode?]

theorem continues_concat_of_code {kind : LineKind} (hcode : kind.code = true) (line : Line)
    (other : LineKind) :
    Continues (lines ++ [line]) (kinds ++ [kind]) other ↔ kind = other ∧ EndsInBackslash line := by
  rw [Continues, lastCode?_concat hlength, if_pos hcode]
  constructor
  · rintro ⟨_, ⟨⟩, hends⟩
    exact ⟨rfl, hends⟩
  · rintro ⟨rfl, hends⟩
    exact ⟨line, rfl, hends⟩

theorem continues_concat_of_no_code {kind : LineKind} (hcode : kind.code = false) (line : Line)
    (other : LineKind) :
    Continues (lines ++ [line]) (kinds ++ [kind]) other ↔ Continues lines kinds other := by
  rw [Continues, lastCode?_concat hlength, hcode, if_neg Bool.false_ne_true, Continues]

/-- Kinds of further lines make no difference. -/
theorem continues_append (more : List LineKind) (kind : LineKind) :
    Continues lines (kinds ++ more) kind ↔ Continues lines kinds kind := by
  have hzip : (lines ++ []).zip (kinds ++ more) = lines.zip kinds ++ [].zip more :=
    List.zip_append hlength
  rw [List.append_nil, List.zip_nil_left, List.append_nil] at hzip
  rw [Continues, lastCode?, hzip, Continues, lastCode?]

end

/-- There is code on the last line that holds code. -/
theorem code_of_continues {lines : List Line} {kinds : List LineKind} {kind : LineKind}
    (h : Continues lines kinds kind) : kind.code = true ∧ kind ∈ kinds := by
  obtain ⟨line, hfound, _⟩ := h
  obtain ⟨hmem, hcode⟩ := List.mem_filter.mp (List.mem_of_getLast? hfound)
  exact ⟨hcode, (List.of_mem_zip hmem).2⟩

theorem Continues.unique {lines : List Line} {kinds : List LineKind} {first second : LineKind}
    (hfirst : Continues lines kinds first) (hsecond : Continues lines kinds second) :
    first = second := by
  obtain ⟨_, hfound, _⟩ := hfirst
  obtain ⟨_, hother, _⟩ := hsecond
  exact congrArg Prod.snd (Option.some.inj (hfound.symm.trans hother))

/-- The last line that holds code is code and nothing else, or a comment too. -/
theorem Continues.kind_eq {lines : List Line} {kind : LineKind}
    (h : Continues lines (Scanner.docstring.classify lines) kind) :
    kind = .codeLine ∨ kind = .mixedLine := by
  obtain ⟨hcode, hmem⟩ := code_of_continues h
  have hknown : ¬ ScannerId.python.Refuses lines := fun hrefuses => nomatch hrefuses.1
  rcases ScannerId.isClassified_of_mem_classify hknown hmem with rfl | rfl | rfl | rfl
  · cases hcode
  · exact .inl rfl
  · cases hcode
  · exact .inr rfl

/-- Unless the last line of code is a comment too, it goes on only if it is nothing but code. -/
theorem exists_continues_iff {lines : List Line}
    (h : ¬ Continues lines (Scanner.docstring.classify lines) .mixedLine) :
    (∃ kind, Continues lines (Scanner.docstring.classify lines) kind) ↔
      Continues lines (Scanner.docstring.classify lines) .codeLine := by
  constructor
  · rintro ⟨kind, hgoesOn⟩
    rcases hgoesOn.kind_eq with rfl | rfl
    · exact hgoesOn
    · exact absurd hgoesOn h
  · intro hgoesOn
    exact ⟨.codeLine, hgoesOn⟩

/-! ## From line to line -/

/-- While a string is open, the last line of code does not go on. -/
def State.IsSettled (state : State) : Prop :=
  state.openQuote.isSome = true → state.continued = false

/-- What a line can come to, with the state behind it. -/
inductive Reading (state : State) (line : Line) : LineKind × State → Prop where
  /-- There is no code on the line. -/
  | withoutCode {kind : LineKind} {after : State} (hcode : kind.code = false)
      (hflag : after.continued = state.continued) (hsettled : after.IsSettled) :
      Reading state line (kind, after)
  /-- There is code behind the end of a string. -/
  | behindString {after : State} (hflag : state.continued = false)
      (hafter : after = ⟨none, false⟩) : Reading state line (.mixedLine, after)
  /-- There is nothing but code. -/
  | code {after : State} (hafter : after = ⟨none, endsWith ['\\'] (trim line)⟩) :
      Reading state line (.codeLine, after)

/-- A string ends on the line, and only code that does not go on is in front of it. -/
theorem reading_kindAfterQuote {state : State} (hflag : state.continued = false) (line : Line)
    (rest : List Char) :
    Reading state line (kindAfterQuote rest, { state with openQuote := none }) := by
  rw [kindAfterQuote]
  cases !(trim rest).isEmpty && !startsWith ['#'] (trim rest) with
  | true => exact .behindString hflag (by rw [hflag])
  | false => exact .withoutCode rfl rfl nofun

/-- Whatever a line is, it is read in one of these ways. -/
theorem reading_advance {state : State} (h : state.IsSettled) (line : Line) :
    Reading state line (Scanner.docstring.advance state line) := by
  obtain ⟨openQuote, continued⟩ := state
  cases hline : isBlankText line with
  | true =>
      simp only [Scanner.advance, hline, ↓reduceIte]
      exact .withoutCode rfl rfl h
  | false =>
      simp only [Scanner.advance, Scanner.docstring, hline, Bool.false_eq_true, ↓reduceIte]
      cases openQuote with
      | some quote =>
          have hflag : continued = false := h rfl
          simp only [readLine]
          split
          · exact .withoutCode rfl rfl h
          · exact reading_kindAfterQuote hflag line _
      | none =>
          simp only [readLine]
          split
          · exact .withoutCode rfl rfl h
          · split
            · next hquotes =>
                have hflag : continued = false :=
                  (Bool.not_eq_true' _).mp (Bool.and_eq_true_iff.mp hquotes).1
                split
                · exact .withoutCode rfl rfl fun _ => hflag
                · exact reading_kindAfterQuote hflag line _
            · exact .code rfl

/-- What is known behind several lines: whether the last line of code held nothing else and goes
on. -/
theorem carried_spec (lines : List Line) :
    (Scanner.docstring.carried lines).IsSettled ∧
    ((Scanner.docstring.carried lines).continued = true ↔
      Continues lines (Scanner.docstring.classify lines) .codeLine) := by
  induction lines using List.reverseRecOn with
  | nil => exact ⟨fun _ => rfl, iff_of_false nofun fun ⟨_, hfound, _⟩ => nomatch hfound⟩
  | append_singleton lines line ih =>
      obtain ⟨hsettled, hflag⟩ := ih
      have hlength := (Scanner.docstring.length_classify lines).symm
      rw [Scanner.classify_append_run rfl rfl, Scanner.carried_concat rfl, Scanner.run_cons,
        Scanner.run_nil]
      have hreading := reading_advance hsettled line
      generalize Scanner.docstring.advance (Scanner.docstring.carried lines) line = read at hreading
      cases hreading with
      | withoutCode hcode hsame hafter =>
          refine ⟨hafter, ?_⟩
          rw [continues_concat_of_no_code hlength hcode, ← hflag, hsame]
      | behindString hbefore hafter =>
          subst hafter
          refine ⟨fun _ => rfl, ?_⟩
          rw [continues_concat_of_code hlength rfl]
          exact iff_of_false nofun fun h => nomatch h.1
      | code hafter =>
          subst hafter
          refine ⟨nofun, ?_⟩
          rw [continues_concat_of_code hlength rfl, and_iff_right rfl]
          rfl

/-! ## A line that begins with quotes -/

section

variable {line : Line} (hquotes : startsWithAny quotes (trim line) = true)

include hquotes

theorem isBlankText_of_quotes : isBlankText line = false := by
  obtain ⟨quote, hquote, hstarts⟩ := List.any_eq_true.mp hquotes
  have hne : ∀ quote ∈ quotes, quote ≠ [] := by decide
  have htrim : trim line ≠ [] := fun hnothing => by
    rw [hnothing, startsWith_iff_isPrefix, List.prefix_nil] at hstarts
    exact hne quote hquote hstarts
  rwa [← isEmpty_trim, List.isEmpty_eq_false_iff]

theorem startsWith_number_of_quotes : startsWith ['#'] (trim line) = false := by
  obtain ⟨quote, hquote, hstarts⟩ := List.any_eq_true.mp hquotes
  obtain ⟨rest, hrest⟩ := startsWith_iff_isPrefix.mp hstarts
  rw [← hrest]
  rcases List.mem_pair.mp hquote with rfl | rfl
  · exact startsWith_cons_eq_false rfl (by decide) _
  · exact startsWith_cons_eq_false rfl (by decide) _

/-- Outside every string the flag decides what such a line is. -/
theorem advance_of_quotes {state : State} (houtside : state.openQuote = none) :
    (state.continued = true → (Scanner.docstring.advance state line).1 = .codeLine) ∧
    (state.continued = false → (Scanner.docstring.advance state line).1.comment = true) := by
  obtain ⟨openQuote, continued⟩ := state
  subst houtside
  simp only [Scanner.advance, Scanner.docstring, isBlankText_of_quotes hquotes, readLine, hquotes,
    startsWith_number_of_quotes hquotes, Bool.false_eq_true, ↓reduceIte, Bool.and_true]
  constructor
  · rintro rfl
    rfl
  · rintro rfl
    simp only [Bool.not_false, ↓reduceIte]
    split <;> rfl

end

/-- **What a string in triple quotes at the start of a line is.** Let a line begin with triple
quotes, outside every string. It is a comment unless the last line before it that holds code holds
nothing else and ends in a backslash, and it is code and nothing else if so. That the same goes for
the last line that holds code whatever else it holds is true of all files but those where it holds
a comment too and ends in a backslash. -/
theorem classify_reads_triple_quote (before : List Line) (line : Line) (after : List Line)
    (houtside : (Scanner.docstring.carried before).openQuote = none)
    (hquotes : startsWithAny quotes (trim line) = true) :
    let kinds := Scanner.docstring.classify (before ++ line :: after)
    let continues := Continues before kinds
    ∃ kind, kinds[before.length]? = some kind ∧
      (kind.comment = true ↔ ¬ continues .codeLine) ∧ (continues .codeLine → kind = .codeLine) ∧
      (((kind.comment = true ↔ ¬ ∃ other, continues other) ∧
          ((∃ other, continues other) → kind = .codeLine)) ↔ ¬ continues .mixedLine) := by
  intro kinds continues
  have hlength := (Scanner.docstring.length_classify before).symm
  have hcontinues : continues = Continues before (Scanner.docstring.classify before) := by
    funext kind
    apply propext
    show Continues before (Scanner.docstring.classify (before ++ line :: after)) kind ↔ _
    rw [Scanner.classify_append_run rfl rfl, continues_append hlength]
  have hflag := (carried_spec before).2
  obtain ⟨hcode, hcomment⟩ := advance_of_quotes hquotes houtside
  refine ⟨_, Scanner.getElem?_classify_append_cons rfl rfl before line after, ?_⟩
  rw [hcontinues]
  generalize (Scanner.docstring.advance (Scanner.docstring.carried before) line).1 = kind at *
  rw [hflag] at hcode
  rw [← Bool.not_eq_true, hflag] at hcomment
  have hlaw : kind.comment = true ↔
      ¬ Continues before (Scanner.docstring.classify before) .codeLine := by
    refine ⟨fun hkind hgoesOn => ?_, hcomment⟩
    rw [hcode hgoesOn] at hkind
    cases hkind
  refine ⟨hlaw, hcode, fun hany hmixed => ?_, fun hmixed => ?_⟩
  · -- the flag knows nothing of a line that is a comment too
    have hpure : ¬ Continues before (Scanner.docstring.classify before) .codeLine :=
      fun hgoesOn => nomatch hgoesOn.unique hmixed
    exact hany.1.mp (hlaw.mpr hpure) ⟨.mixedLine, hmixed⟩
  · rw [exists_continues_iff hmixed]
    exact ⟨hlaw, hcode⟩

/-- A string behind one that is followed by code which goes on: it is taken for a comment. -/
theorem classify_reads_triple_quote_behind_string :
    let first := "\"\"\"a\"\"\" + \\".toList
    let line := "\"\"\"b\"\"\"".toList
    let kinds := Scanner.docstring.classify [first, line]
    (Scanner.docstring.carried [first]).openQuote = none ∧
    startsWithAny quotes (trim line) = true ∧ Continues [first] kinds .mixedLine ∧
    kinds = [.mixedLine, .commentLine] ∧
    ¬ ∀ kind, kinds[1]? = some kind →
      (kind.comment = true ↔ ¬ ∃ other, Continues [first] kinds other) := by
  intro first line kinds
  have houtside : (Scanner.docstring.carried [first]).openQuote = none := by decide +kernel
  have hquotes : startsWithAny quotes (trim line) = true := by decide +kernel
  have hmixed : Continues [first] kinds .mixedLine := by decide +kernel
  obtain ⟨kind, hkind, hcomment, _⟩ := classify_reads_triple_quote [first] line [] houtside hquotes
  refine ⟨houtside, hquotes, hmixed, by decide +kernel, fun hlaw => ?_⟩
  have hpure : ¬ Continues [first] kinds .codeLine := fun hgoesOn => nomatch hgoesOn.unique hmixed
  exact (hlaw kind hkind).mp (hcomment.mpr hpure) ⟨.mixedLine, hmixed⟩

end LineCensus.Docstring
