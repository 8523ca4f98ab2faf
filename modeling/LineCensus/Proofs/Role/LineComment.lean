/-
# Comments at the end of a line

The tracker goes along a line up to a comment and no further, so no brace in the comment
counts. Attributes are another matter, since their words are looked for in all of the
line. What a comment says is without effect in three cases: on a line that begins inside
a literal or a comment, on a line without a condition, and on one where the condition,
heard together with the comment, says the same.

There is no fourth case, at least for a line that brings neither an opening brace nor
the end of an item.
-/

import LineCensus.Proofs.Role.Attribute
import LineCensus.Proofs.Role.Reach

namespace LineCensus.Rust

open Text

/-! ## Coming to a comment -/

/-- A comment up to the end of a line, by its text. -/
def lineComment (text : List Char) : List Char := '/' :: '/' :: text

/-- The places where the tracker stops on its way along the rest of a line: what it is in there and
what is still in front of it. -/
def stops (mode : Mode) (previous : Option Char) : List Char → List (Mode × List Char)
  | [] => [(mode, [])]
  | c :: rest =>
    let lexeme := firstLexeme mode previous c rest
    (mode, c :: rest) :: stops lexeme.mode lexeme.last? lexeme.rest
termination_by line => line.length
decreasing_by exact length_rest_firstLexeme mode previous c rest

/-- Whether the tracker comes to a comment behind `front` and takes it for one. -/
def ReachesComment (mode : Mode) (front comment : List Char) : Prop :=
  (.code, lineComment comment) ∈ stops mode none (front ++ lineComment comment)

instance (mode : Mode) (front comment : List Char) :
    Decidable (ReachesComment mode front comment) :=
  inferInstanceAs (Decidable (_ ∈ _))

/-- What is in front of the tracker gets shorter. -/
theorem length_of_mem_stops {mode : Mode} {previous : Option Char} {line : List Char}
    {stop : Mode × List Char} (h : stop ∈ stops mode previous line) :
    stop.2.length ≤ line.length := by
  fun_induction stops mode previous line with
  | case1 => simp_all
  | case2 mode previous c rest lexeme ih =>
      rcases List.mem_cons.mp h with rfl | hrest
      · exact Nat.le_refl _
      · exact (ih hrest).trans (length_rest_firstLexeme mode previous c rest).le

/-! ## Lexemes in front of a comment -/

/-- The same piece with more of the line behind it. -/
def Lexeme.followedBy (text : List Char) (lexeme : Lexeme) : Lexeme :=
  { lexeme with rest := lexeme.rest ++ text }

theorem hashesToQuote?_append_slash (seen : Nat) (front rest : List Char) :
    hashesToQuote? seen (front ++ '/' :: rest) =
      (hashesToQuote? seen front).map (Prod.map id (· ++ '/' :: rest)) := by
  induction front generalizing seen with
  | nil => rfl
  | cons c front ih =>
      by_cases hhash : c = '#'
      · subst hhash
        exact ih (seen + 1)
      · by_cases hquote : c = '"'
        · subst hquote
          rfl
        · simp [hashesToQuote?, hhash, hquote]

theorem rawOpening?_append_slash (c : Char) (front rest : List Char) :
    rawOpening? (c :: (front ++ '/' :: rest)) =
      (rawOpening? (c :: front)).map (Prod.map id (Prod.map id (· ++ '/' :: rest))) := by
  by_cases hr : c = 'r'
  · subst hr
    simp only [rawOpening?, hashesToQuote?_append_slash, Option.map_map]
    rfl
  · by_cases hb : c = 'b'
    · subst hb
      cases front with
      | nil => rfl
      | cons d front =>
          by_cases hd : d = 'r'
          · subst hd
            simp only [List.cons_append, rawOpening?, hashesToQuote?_append_slash, Option.map_map]
            rfl
          · simp [rawOpening?, hd]
    · simp [rawOpening?, hr, hb]

theorem head?_append_slash (front rest : List Char) :
    (front ++ '/' :: rest).head? = some (front.head?.getD '/') := by
  cases front <;> rfl

/-- How the first piece of a line can lie to a comment behind `front`. Either it ends in front of
the comment, and then it is the same whatever the comment is, or it takes in the slashes. -/
def EndsBeforeOrTakesIn (front : List Char) (piece : List Char → Lexeme) : Prop :=
  (∃ lexeme : Lexeme, lexeme.rest <:+ front ∧
    ∀ comment, piece comment = lexeme.followedBy (lineComment comment)) ∨
  ∀ comment, (piece comment).rest.length < (lineComment comment).length

theorem stringLexeme_lineComment (c : Char) (front : List Char) :
    EndsBeforeOrTakesIn front fun comment => stringLexeme c (front ++ lineComment comment) := by
  simp only [EndsBeforeOrTakesIn, stringLexeme]
  by_cases hescape : c = '\\'
  · simp only [if_pos hescape]
    cases front with
    | nil => exact .inr fun comment => Nat.lt_succ_self _
    | cons d front =>
        exact .inl ⟨.hide [c, d] .string front, List.suffix_cons d front, fun _ => rfl⟩
  · simp only [if_neg hescape]
    by_cases hquote : c = '"'
    · simp only [if_pos hquote]
      exact .inl ⟨.hide [c] .code front, List.suffix_rfl, fun _ => rfl⟩
    · simp only [if_neg hquote]
      exact .inl ⟨.hide [c] .string front, List.suffix_rfl, fun _ => rfl⟩

theorem rawStringLexeme_lineComment (hashes : Nat) (c : Char) (front : List Char) :
    EndsBeforeOrTakesIn front fun comment =>
      rawStringLexeme hashes c (front ++ lineComment comment) := by
  have hmark : '/' ∉ List.replicate hashes '#' :=
    fun hmem => absurd (List.eq_of_mem_replicate hmem) (by decide)
  simp only [EndsBeforeOrTakesIn, rawStringLexeme, lineComment, startsWith_append_cons hmark]
  by_cases hclose : c = '"' ∧ startsWith (List.replicate hashes '#') front
  · have hlength := (startsWith_iff_isPrefix.mp hclose.2).length_le
    rw [List.length_replicate] at hlength
    simp only [if_pos hclose, List.take_append_of_le_length hlength,
      List.drop_append_of_le_length hlength]
    exact .inl ⟨.hide (c :: front.take hashes) .code (front.drop hashes),
      List.drop_suffix hashes front, fun _ => rfl⟩
  · simp only [if_neg hclose]
    exact .inl ⟨.hide [c] (.rawString hashes) front, List.suffix_rfl, fun _ => rfl⟩

theorem commentLexeme_lineComment (outer : Nat) (c : Char) (front : List Char) :
    EndsBeforeOrTakesIn front fun comment =>
      commentLexeme outer c (front ++ lineComment comment) := by
  simp only [EndsBeforeOrTakesIn, commentLexeme]
  cases front with
  | nil =>
      simp only [List.nil_append, lineComment, List.head?_cons, Option.some.injEq, Char.reduceEq,
        and_false, and_true, if_false]
      by_cases hclose : c = '*'
      · simp only [if_pos hclose]
        exact .inr fun comment => Nat.lt_succ_self _
      · simp only [if_neg hclose]
        exact .inl ⟨.hide [c] (.comment outer) [], List.suffix_rfl, fun _ => rfl⟩
  | cons d front =>
      simp only [List.cons_append, List.head?_cons, Option.some.injEq, List.take_succ_cons,
        List.take_zero, List.drop_succ_cons, List.drop_zero]
      by_cases hopen : c = '/' ∧ d = '*'
      · simp only [if_pos hopen]
        exact .inl ⟨.hide [c, d] _ front, List.suffix_cons d front, fun _ => rfl⟩
      · by_cases hclose : c = '*' ∧ d = '/'
        · simp only [if_neg hopen, if_pos hclose]
          exact .inl ⟨.hide [c, d] _ front, List.suffix_cons d front, fun _ => rfl⟩
        · simp only [if_neg hopen, if_neg hclose]
          exact .inl ⟨.hide [c] _ (d :: front), List.suffix_rfl, fun _ => rfl⟩

/-- In code a single quote is the only character that looks further than the next slash. -/
theorem codeLexeme_lineComment (previous : Option Char) {c : Char} (hc : c ≠ '\'')
    (front : List Char) :
    EndsBeforeOrTakesIn front fun comment =>
      codeLexeme previous c (front ++ lineComment comment) := by
  simp only [EndsBeforeOrTakesIn, codeLexeme, lineComment, head?_append_slash,
    rawOpening?_append_slash, if_neg hc, Option.some.injEq]
  by_cases hline : c = '/' ∧ front.head?.getD '/' = '/'
  · simp only [if_pos hline]
    exact .inr fun comment => Nat.succ_pos _
  simp only [if_neg hline]
  by_cases hblock : c = '/' ∧ front.head?.getD '/' = '*'
  · simp only [if_pos hblock]
    cases front with
    | nil => exact absurd hblock.2 (by decide)
    | cons d front =>
        exact .inl ⟨.hide [c, d] (.comment 0) front, List.suffix_cons d front, fun _ => rfl⟩
  simp only [if_neg hblock]
  by_cases hquote : c = '"'
  · simp only [if_pos hquote]
    exact .inl ⟨.hide [c] .string front, List.suffix_rfl, fun _ => rfl⟩
  simp only [if_neg hquote]
  by_cases hword : previous.any isWordChar = true
  · simp only [if_pos hword]
    exact .inl ⟨.plain c front, List.suffix_rfl, fun _ => rfl⟩
  simp only [if_neg hword]
  cases hopening : rawOpening? (c :: front) with
  | none => exact .inl ⟨.plain c front, List.suffix_rfl, fun _ => rfl⟩
  | some found =>
      obtain ⟨opening, hashes, inside⟩ := found
      have hshape := rawOpening?_append hopening
      have hsuffix : inside <:+ c :: front := ⟨opening ++ ['"'], by simp [hshape]⟩
      refine .inl ⟨⟨opening, ['"'], .rawString hashes, inside⟩, ?_, fun _ => rfl⟩
      refine (List.suffix_cons_iff.mp hsuffix).resolve_left fun hwhole => ?_
      have hlength := congrArg List.length (hwhole ▸ hshape)
      simp only [List.length_cons, List.length_append] at hlength
      omega

theorem firstLexeme_lineComment (mode : Mode) (previous : Option Char) {c : Char}
    (hc : c ≠ '\'') (front : List Char) :
    EndsBeforeOrTakesIn front fun comment =>
      firstLexeme mode previous c (front ++ lineComment comment) := by
  cases mode with
  | code => exact codeLexeme_lineComment previous hc front
  | string => exact stringLexeme_lineComment c front
  | rawString hashes => exact rawStringLexeme_lineComment hashes c front
  | comment outer => exact commentLexeme_lineComment outer c front

/-! ## Lines with a comment -/

/-- Whatever a comment says, the line is masked in the same way: what is in front of it stays as it
is, and all of the comment goes. -/
theorem maskFrom_lineComment {mode : Mode} {previous : Option Char} {front comment : List Char}
    (hquote : '\'' ∉ front)
    (hreach : (.code, lineComment comment) ∈ stops mode previous (front ++ lineComment comment)) :
    ∃ seen : List Char, seen.length = front.length ∧ ∀ other,
      maskFrom mode previous (front ++ lineComment other) =
        (seen ++ List.replicate (lineComment other).length ' ', .code) := by
  induction hn : front.length using Nat.strong_induction_on generalizing mode previous front with
  | _ n ih =>
  cases front with
  | nil =>
      rw [List.nil_append, lineComment, stops, ← lineComment, List.mem_cons] at hreach
      have hcode : mode = .code := by
        rcases hreach with hhere | hlater
        · exact (Prod.mk.inj hhere).1.symm
        · have hlength := (length_of_mem_stops hlater).trans_lt
            (length_rest_firstLexeme mode previous '/' ('/' :: comment))
          exact absurd hlength (Nat.lt_irrefl _)
      subst hcode
      refine ⟨[], hn, fun other => ?_⟩
      rw [List.nil_append, lineComment, maskFrom]
      simp [firstLexeme, codeLexeme, Lexeme.hide, maskFrom]
  | cons c front =>
      obtain ⟨hc, hfront⟩ := not_or.mp (List.mem_cons.not.mp hquote)
      rw [List.cons_append, stops, List.mem_cons] at hreach
      have hlater := hreach.resolve_left fun hhere => by
        have hlength := congrArg (fun stop => stop.2.length) hhere
        simp only [List.length_cons, List.length_append] at hlength
        omega
      rcases firstLexeme_lineComment mode previous (Ne.symm hc) front with
        ⟨lexeme, hsuffix, hlexeme⟩ | hshort
      · dsimp only at hlexeme
        rw [hlexeme] at hlater
        obtain ⟨seen, hseen, hmask⟩ := ih lexeme.rest.length
          (by simp only [← hn, List.length_cons]; exact Nat.lt_succ_of_le hsuffix.length_le)
          (fun hmem => hfront (hsuffix.subset hmem)) hlater rfl
        refine ⟨lexeme.visible ++ List.replicate lexeme.hidden.length ' ' ++ seen, ?_,
          fun other => ?_⟩
        · have hline := firstLexeme_append mode previous c (front ++ lineComment [])
          rw [hlexeme] at hline
          have hlength := congrArg List.length hline
          simp only [Lexeme.followedBy, List.length_append, List.length_cons] at hlength
          rw [List.length_cons] at hn
          simp only [List.length_append, List.length_replicate, hseen]
          omega
        · rw [List.cons_append, maskFrom, hlexeme]
          have hrest := hmask other
          simp only [Lexeme.followedBy, Lexeme.last?] at hrest ⊢
          rw [hrest]
          simp
      · exact absurd (length_of_mem_stops hlater) (Nat.not_le_of_lt (hshort comment))

/-- Whether an attribute is an inner one is settled in front of any comment. -/
theorem isInnerAttribute_lineComment (front comment : List Char) :
    isInnerAttribute (trim (front ++ lineComment comment)) =
      startsWith ['#', '!', '['] (trimLeft front) := by
  rw [isInnerAttribute, lineComment, Attribute.trim_slash, startsWith_append_cons (by decide)]

namespace State

/-- Whatever a comment says, the line it stands on is tracked in the same way, if the attribute on
the line is read in the same way. -/
theorem trackLine_lineComment {state : State} {front comment other : List Char}
    (hquote : '\'' ∉ front) (hreach : ReachesComment state.mode front comment)
    (hsame : state.mode = .code → Attribute.meaning (trim (front ++ lineComment comment)) =
      Attribute.meaning (trim (front ++ lineComment other))) :
    state.trackLine (front ++ lineComment comment) =
      state.trackLine (front ++ lineComment other) := by
  obtain ⟨seen, _, hmask⟩ := maskFrom_lineComment hquote hreach
  have hread : state.readAttribute (front ++ lineComment comment) =
        state.readAttribute (front ++ lineComment other) ∧
      state.isTestAttribute (front ++ lineComment comment) =
        state.isTestAttribute (front ++ lineComment other) := by
    by_cases hcode : state.mode = .code
    · simp only [readAttribute, isTestAttribute, hsame hcode, isInnerAttribute_lineComment,
        and_self]
    · simp [readAttribute, isTestAttribute, hcode]
  have hcomment : state.mode.mask (front ++ lineComment comment) = _ := hmask comment
  have hother : state.mode.mask (front ++ lineComment other) = _ := hmask other
  rw [trackLine_eq, trackLine_eq, hread.1, hread.2, hcomment, hother]
  simp only [visitAll_append, visitAll_replicate]

/-! ## Lines that show what an attribute says -/

theorem scopes_readAttribute (state : State) (line : Line) :
    (state.readAttribute line).scopes = state.scopes := by
  unfold readAttribute
  split
  · split
    · split <;> rfl
    · rfl
    · rfl
  · rfl

theorem scopes_visitAll {state : State} (hscopes : state.scopes = []) {text : List Char}
    (hopen : '{' ∉ text) (touched : Bool) : (visitAll state touched text).1.scopes = [] := by
  induction text generalizing state touched with
  | nil => exact hscopes
  | cons c rest ih =>
      obtain ⟨hc, hrest⟩ := not_or.mp (List.mem_cons.not.mp hopen)
      refine ih ?_ hrest _
      unfold visit
      split
      · exact absurd rfl hc
      · simp [closeBrace, hscopes]
      all_goals exact hscopes

/-- Where no attribute waits and no scope is open, nothing begins or ends a test. -/
theorem visitAll_snd_of_idle {state : State} (hscopes : state.scopes = [])
    (hpending : state.pending = false) (touched : Bool) (text : List Char) :
    (visitAll state touched text).2 = touched := by
  induction text generalizing state touched with
  | nil => rfl
  | cons c rest ih =>
      have hvisit : (state.visit c).scopes = [] ∧ (state.visit c).pending = false := by
        refine ⟨?_, by rw [pending_visit, hpending, Bool.false_and]⟩
        unfold visit
        split <;> simp [openBrace, closeBrace, hscopes, hpending]
      have hedge : state.isTestEdge c = false := by
        unfold isTestEdge
        split <;> simp [endsScope, endsPendingItem, hscopes, hpending]
      rw [visitAll, ih hvisit.1 hvisit.2, hedge, Bool.or_false]

/-- A line that shows whether an attribute waits. -/
theorem trackLine_letter {state : State} (hcode : state.mode = .code) (hscopes : state.scopes = []) :
    state.trackLine ['x'] = (if state.pending then .test else .mainline, state) := by
  obtain ⟨hread, htest⟩ :=
    readAttribute_of_not_opensAttribute (show opensAttribute ['x'] = false from rfl) state
  rw [trackLine_of_isQuiet hcode (List.all_eq_true.mp rfl), hread, htest]
  simp [visitAll, visit, isTestEdge, hscopes]

end State

/-- Where no brace opens and no semicolon stands, no item comes up. -/
theorem any_reachesItem_eq_false {text : List Char} (hopen : '{' ∉ text) (hend : ';' ∉ text)
    (state : State) : (visits state text).any reachesItem = false := by
  induction text generalizing state with
  | nil => rfl
  | cons c rest ih =>
      obtain ⟨hbrace, hbraces⟩ := not_or.mp (List.mem_cons.not.mp hopen)
      obtain ⟨hsemicolon, hsemicolons⟩ := not_or.mp (List.mem_cons.not.mp hend)
      rw [visits, List.any_cons, ih hbraces hsemicolons, reachesItem]
      simp [Ne.symm hbrace, Ne.symm hsemicolon]

/-- The only line of a file is a test if there is a test attribute on it. -/
theorem lineRoles_singleton (line : Line) :
    lineRoles [line] = [if Attribute.meaning (trim line) = .test then .test else .mainline] := by
  have hroles : lineRoles [line] =
      if (State.start.trackLine line).2.wholeFile then [.test]
      else [(State.start.trackLine line).1] := rfl
  rw [hroles, State.wholeFile_trackLine, State.trackLine_eq]
  by_cases hmeaning : Attribute.meaning (trim line) = .test
  · cases hinner : isInnerAttribute (trim line) <;>
      simp [State.isInnerTestAttribute, State.isTestAttribute, State.start, hmeaning, hinner]
  · have hscopes : ((State.start.readAttribute line).inMode .code).scopes = [] :=
      State.scopes_readAttribute .start line
    have hpending : ((State.start.readAttribute line).inMode .code).pending = false := by
      show (State.start.readAttribute line).pending = false
      rw [State.pending_readAttribute]
      simp [State.isTestAttribute, hmeaning, State.start]
    have htouched :=
      State.visitAll_snd_of_idle hscopes hpending false (State.start.mode.mask line).1
    simp only [htouched]
    simp [State.isInnerTestAttribute, State.isTestAttribute, hmeaning, State.start]

/-- A line between a test attribute and something else. -/
theorem lineRoles_behind_testAttribute {line : Line}
    (hmeaning : Attribute.meaning (trim line) ≠ .test)
    (hmode : (Mode.code.mask line).2 = .code) (hopen : '{' ∉ (Mode.code.mask line).1)
    (hend : ';' ∉ (Mode.code.mask line).1) :
    lineRoles [testAttribute, line, ['x']] =
      [.test, .test, if Attribute.meaning (trim line) = .notTest then .mainline else .test] := by
  have hwaiting : State.start.trackLine testAttribute =
      (.test, { State.start with pending := true }) :=
    State.trackLine_testAttribute rfl
  generalize hstate : { State.start with pending := true } = waiting at hwaiting
  have hfirst : (waiting.trackLine line).1 = .test := by
    rw [State.trackLine_eq, ← hstate]
    simp
  have hwhole : (waiting.trackLine line).2.wholeFile = false := by
    rw [State.wholeFile_trackLine, ← hstate]
    simp [State.isInnerTestAttribute, hmeaning, State.start]
  have hpending : (waiting.trackLine line).2.pending =
      !decide (Attribute.meaning (trim line) = .notTest) := by
    have hnone : (waiting.meetsOn line).any reachesItem = false := by
      rw [State.meetsOn, ← hstate]
      exact any_reachesItem_eq_false hopen hend _
    rw [State.pending_trackLine, hnone, ← hstate]
    simp [State.isExclusion, State.isTestAttribute, hmeaning, State.start]
  have hscopes : (waiting.trackLine line).2.scopes = [] := by
    rw [State.trackLine_eq]
    refine State.scopes_visitAll ?_ (by rw [← hstate]; exact hopen) false
    rw [← hstate]
    exact State.scopes_readAttribute _ line
  have hcode : (waiting.trackLine line).2.mode = .code := by
    rw [State.trackLine_eq, ← hstate]
    exact hmode
  have hlast := State.trackLine_letter hcode hscopes
  have hroles : State.start.trackLines [testAttribute, line, ['x']] =
      ([.test, .test, if (waiting.trackLine line).2.pending then .test else .mainline],
        (waiting.trackLine line).2) := by
    rw [trackLines_cons, hwaiting, trackLines_cons, hfirst, trackLines_cons, hlast]
    rfl
  rw [lineRoles, State.track, hroles]
  simp only [hwhole, hpending]
  by_cases hnot : Attribute.meaning (trim line) = .notTest <;> simp [hnot]

/-! ## What a comment can change -/

/-- Whether two comments come to the same behind what is in front of them. -/
def HeardAlike (front comment other : List Char) : Prop :=
  Attribute.asksCondition front = true →
    (Attribute.meaning (trimLeft front)).heeding (Attribute.overheard (trimRight comment)) =
      (Attribute.meaning (trimLeft front)).heeding (Attribute.overheard (trimRight other))

instance (front comment other : List Char) : Decidable (HeardAlike front comment other) :=
  inferInstanceAs (Decidable (_ → _))

theorem meaning_eq_iff_heardAlike (front comment other : List Char) :
    Attribute.meaning (trim (front ++ lineComment comment)) =
        Attribute.meaning (trim (front ++ lineComment other)) ↔
      HeardAlike front comment other := by
  rw [lineComment, lineComment, Attribute.meaning_lineComment, Attribute.meaning_lineComment,
    HeardAlike]
  cases Attribute.asksCondition front <;> simp

theorem not_mem_mask_lineComment {front comment : List Char} (hquote : '\'' ∉ front)
    (hreach : ReachesComment .code front comment) {c : Char} (hspace : c ≠ ' ') (hc : c ∉ front)
    (other : List Char) : c ∉ (Mode.code.mask (front ++ lineComment other)).1 := by
  obtain ⟨seen, hlength, hmask⟩ := maskFrom_lineComment hquote hreach
  have hblanks := blanks_maskFrom .code none (front ++ lineComment other)
  rw [hmask] at hblanks
  have hseen : Blanks seen front := by
    have htake := List.forall₂_take_append _ _ _ hblanks
    rwa [← hlength, List.take_left] at htake
  rw [Mode.mask, hmask]
  refine fun hmem => (List.mem_append.mp hmem).elim (hseen.not_mem hspace hc) fun hfill => ?_
  exact hspace (List.eq_of_mem_replicate hfill)

/-- **What a comment says is heard with the condition in front of it.** With another comment in its
place nothing changes on a line that begins inside a literal or a comment, and on others nothing
changes as long as the two are heard alike. If they are not, they make a difference to the roles of
some file, at least where neither a brace nor a semicolon precedes them on their line. -/
theorem track_lineComment (front comment other : List Char) (hquote : '\'' ∉ front) :
    (∀ (state : State) (before after : List Line),
      ReachesComment (state.trackLines before).2.mode front comment →
      ((state.trackLines before).2.mode = .code → HeardAlike front comment other) →
      state.track (before ++ (front ++ lineComment comment) :: after) =
        state.track (before ++ (front ++ lineComment other) :: after)) ∧
    (ReachesComment .code front comment → '{' ∉ front → ';' ∉ front →
      ((∀ before after : List Line, (State.start.trackLines before).2.mode = .code →
          lineRoles (before ++ (front ++ lineComment comment) :: after) =
            lineRoles (before ++ (front ++ lineComment other) :: after)) ↔
        HeardAlike front comment other)) := by
  have hsame (state : State) (before after : List Line)
      (hreach : ReachesComment (state.trackLines before).2.mode front comment)
      (hheard : (state.trackLines before).2.mode = .code → HeardAlike front comment other) :
      state.track (before ++ (front ++ lineComment comment) :: after) =
        state.track (before ++ (front ++ lineComment other) :: after) := by
    have hline := State.trackLine_lineComment hquote hreach fun hcode =>
      (meaning_eq_iff_heardAlike front comment other).mpr (hheard hcode)
    rw [State.track, State.track, trackLines_append, trackLines_append, trackLines_cons,
      trackLines_cons, hline]
  refine ⟨hsame, fun hreach hopen hend => ⟨fun hroles => ?_, fun hheard before after hcode => ?_⟩⟩
  · obtain ⟨_, _, hmask⟩ := maskFrom_lineComment hquote hreach
    have hthird (text : List Char)
        (hmeaning : Attribute.meaning (trim (front ++ lineComment text)) ≠ .test) :=
      lineRoles_behind_testAttribute hmeaning (congrArg Prod.snd (hmask text))
        (not_mem_mask_lineComment hquote hreach (by decide) hopen text)
        (not_mem_mask_lineComment hquote hreach (by decide) hend text)
    have halone := hroles [] [] rfl
    have hbehind := hroles [testAttribute] [['x']]
      (by rw [trackLines_cons, State.trackLine_testAttribute rfl]; rfl)
    simp only [List.nil_append, lineRoles_singleton] at halone
    simp only [List.singleton_append] at hbehind
    rw [← meaning_eq_iff_heardAlike]
    by_cases hcomment : Attribute.meaning (trim (front ++ lineComment comment)) = .test
    · have hother : Attribute.meaning (trim (front ++ lineComment other)) = .test := by
        by_contra hother
        simp [hcomment, hother] at halone
      rw [hcomment, hother]
    · have hother : Attribute.meaning (trim (front ++ lineComment other)) ≠ .test := by
        intro hother
        simp [hcomment, hother] at halone
      rw [hthird comment hcomment, hthird other hother] at hbehind
      generalize Attribute.meaning (trim (front ++ lineComment comment)) = first at *
      generalize Attribute.meaning (trim (front ++ lineComment other)) = second at *
      cases first <;> cases second <;> simp_all
  · exact congrArg Prod.fst (hsame .start before after (by rwa [hcode]) fun _ => hheard)

/-- Two comments behind a condition, on a line that begins in a string and on one that does not. -/
theorem track_lineComment_heard :
    let closing := "\x7b\"; #[cfg(unix)] ".toList
    let opening := "let open = \"".toList
    let condition := "#[cfg(unix)] ".toList
    let comment := " see test notes".toList
    ('\'' ∉ closing ∧ ReachesComment .string closing comment ∧
      lineRoles [opening, closing ++ lineComment comment] =
        lineRoles [opening, closing ++ lineComment []]) ∧
    ('\'' ∉ condition ∧ ReachesComment .code condition comment ∧
      ∃ before after : List Line, (State.start.trackLines before).2.mode = .code ∧
        lineRoles (before ++ (condition ++ lineComment comment) :: after) ≠
          lineRoles (before ++ (condition ++ lineComment []) :: after)) := by
  intro closing opening condition comment
  have hclosing : '\'' ∉ closing := by decide
  have hcondition : '\'' ∉ condition := by decide
  have hinside : (State.start.trackLines [opening]).2.mode = .string := by decide +kernel
  have hreachClosing : ReachesComment .string closing comment := by decide +kernel
  have hreach : ReachesComment .code condition comment := by decide +kernel
  have hheard : ¬HeardAlike condition comment [] := by decide +kernel
  refine ⟨⟨hclosing, hreachClosing, ?_⟩, hcondition, hreach, ?_⟩
  · have hsame := (track_lineComment closing comment [] hclosing).1 .start [opening] []
      (by rwa [hinside]) (by rw [hinside]; exact nofun)
    exact congrArg Prod.fst hsame
  · have hdifferent := ((track_lineComment condition comment [] hcondition).2 hreach (by decide)
      (by decide)).not.mpr hheard
    simpa only [not_forall, exists_prop] using hdifferent

end LineCensus.Rust
