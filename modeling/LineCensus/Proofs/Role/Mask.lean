/-
# Masked lines

Masking puts a space in place of every character of a Rust file that is part of a
literal or a comment. The tracker takes in a line exactly as it takes in the characters
of the masked line, so what it does inside literals and comments is settled here once,
and other modules reason about masked lines only.

Nothing in a masked line opens a literal or a comment any more. Tracking a masked file
therefore amounts to the same, with one proviso: attributes are read off the line as it
is, so a line that looks like an attribute must be one that masking does not change.
-/

import LineCensus.Proofs.Text.Search
import LineCensus.Role.Tracker
import Mathlib.Data.List.Forall2
import Mathlib.Data.List.TakeWhile

namespace LineCensus.Rust

open Text

/-! ## Masking -/

/-- The rest of a line after `previous` with a space in place of every character that does not
count, and the mode after it. -/
def maskFrom (mode : Mode) (previous : Option Char) : List Char → List Char × Mode
  | [] => ([], mode)
  | c :: rest =>
    let lexeme := firstLexeme mode previous c rest
    let after := maskFrom lexeme.mode lexeme.last? lexeme.rest
    (lexeme.visible ++ List.replicate lexeme.hidden.length ' ' ++ after.1, after.2)
termination_by line => line.length
decreasing_by exact length_rest_firstLexeme mode previous c rest

/-- A line with a space in place of every character that is part of a literal or a comment, and
the literal or comment that is open after it. -/
def Mode.mask (mode : Mode) (line : Line) : Line × Mode := maskFrom mode none line

/-- Lines with a space in place of every character that is part of a literal or a comment. -/
def maskLines (mode : Mode) : List Line → List Line
  | [] => []
  | line :: rest => (mode.mask line).1 :: maskLines (mode.mask line).2 rest

/-- A text in which characters of another may be replaced by spaces. -/
def Blanks (masked text : List Char) : Prop :=
  List.Forall₂ (fun m c => m = c ∨ m = ' ') masked text

theorem blanks_refl (text : List Char) : Blanks text text :=
  List.forall₂_same.mpr fun _ _ => .inl rfl

theorem blanks_replicate (text : List Char) :
    Blanks (List.replicate text.length ' ') text := by
  induction text with
  | nil => exact .nil
  | cons c rest ih => exact .cons (.inr rfl) ih

/-- Masking keeps every character in its place or puts a space there. -/
theorem blanks_maskFrom (mode : Mode) (previous : Option Char) (line : List Char) :
    Blanks (maskFrom mode previous line).1 line := by
  fun_induction maskFrom mode previous line with
  | case1 => exact .nil
  | case2 mode previous c rest lexeme after ih =>
      rw [← firstLexeme_append mode previous c rest]
      exact List.rel_append (List.rel_append (blanks_refl _) (blanks_replicate _)) ih

/-! ## The tracker reads masked lines -/

namespace State

/-- The same state in another mode. -/
def inMode (mode : Mode) (state : State) : State := { state with mode }

@[simp] theorem inMode_inMode (first second : Mode) (state : State) :
    (state.inMode first).inMode second = state.inMode second := rfl

@[simp] theorem mode_inMode (mode : Mode) (state : State) : (state.inMode mode).mode = mode := rfl

@[simp] theorem inMode_mode (state : State) : state.inMode state.mode = state := rfl

@[simp] theorem openBrace_inMode (mode : Mode) (state : State) :
    (state.inMode mode).openBrace = state.openBrace.inMode mode := by
  cases hpending : state.pending <;> simp [openBrace, inMode, hpending]

/-- What a character outside literals and comments does has nothing to do with them. -/
@[simp] theorem visit_inMode (mode : Mode) (state : State) (c : Char) :
    (state.inMode mode).visit c = (state.visit c).inMode mode := by
  simp only [visit, openBrace_inMode]
  split <;> rfl

@[simp] theorem isTestEdge_inMode (mode : Mode) (state : State) (c : Char) :
    (state.inMode mode).isTestEdge c = state.isTestEdge c := rfl

@[simp] theorem mode_visit (state : State) (c : Char) : (state.visit c).mode = state.mode :=
  (congrArg State.mode (visit_inMode state.mode state c) :)

end State

@[simp] theorem visitAll_inMode (mode : Mode) (state : State) (touched : Bool) (text : List Char) :
    visitAll (state.inMode mode) touched text =
      ((visitAll state touched text).1.inMode mode, (visitAll state touched text).2) := by
  induction text generalizing state touched with
  | nil => rfl
  | cons c rest ih => simp [visitAll, ih]

@[simp] theorem mode_visitAll (state : State) (touched : Bool) (text : List Char) :
    (visitAll state touched text).1.mode = state.mode := by
  induction text generalizing state touched with
  | nil => rfl
  | cons c rest ih => simp [visitAll, ih]

theorem visitAll_append (state : State) (touched : Bool) (first second : List Char) :
    visitAll state touched (first ++ second) =
      visitAll (visitAll state touched first).1 (visitAll state touched first).2 second := by
  induction first generalizing state touched with
  | nil => rfl
  | cons c rest ih => exact ih _ _

/-- A character that gives a file its structure. -/
def isStructural (c : Char) : Bool :=
  ['{', '}', '(', ')', '[', ']', ';'].contains c

/-- Characters without structure do nothing. -/
theorem visitAll_of_not_structural {text : List Char} (h : ∀ c ∈ text, ¬ isStructural c = true)
    (state : State) (touched : Bool) : visitAll state touched text = (state, touched) := by
  induction text with
  | nil => rfl
  | cons c rest ih =>
      obtain ⟨hc, hrest⟩ := List.forall_mem_cons.mp h
      have hvisit : state.visit c = state := by
        unfold State.visit
        split <;> first | rfl | exact absurd rfl hc
      have hedge : state.isTestEdge c = false := by
        unfold State.isTestEdge
        split <;> first | rfl | exact absurd rfl hc
      rw [visitAll, hvisit, hedge, Bool.or_false]
      exact ih hrest

theorem visitAll_replicate (state : State) (touched : Bool) (n : Nat) :
    visitAll state touched (List.replicate n ' ') = (state, touched) := by
  refine visitAll_of_not_structural (fun c hc => ?_) state touched
  rw [List.eq_of_mem_replicate hc]
  decide

/-- The tracker takes in the characters of the masked line, all of them in code. -/
theorem readFrom_eq (state : State) (touched : Bool) (previous : Option Char) (line : List Char) :
    readFrom state touched previous line =
      let after := visitAll (state.inMode .code) touched (maskFrom state.mode previous line).1
      (after.1.inMode (maskFrom state.mode previous line).2, after.2) := by
  fun_induction readFrom state touched previous line with
  | case1 => simp [maskFrom, visitAll]
  | case2 state touched previous c rest lexeme after ih =>
      have hafter : after = ((visitAll state touched lexeme.visible).1.inMode lexeme.mode,
          (visitAll state touched lexeme.visible).2) :=
        visitAll_inMode lexeme.mode state touched lexeme.visible
      rw [maskFrom, ih, hafter]
      simp [visitAll_append, visitAll_replicate, lexeme]

/-! ## Bare text -/

/-- Text in which nothing opens a literal or a comment. -/
def IsBare : List Char → Prop
  | [] => True
  | c :: rest =>
    c ≠ '"' ∧ (c = '/' → rest.head? ≠ some '/' ∧ rest.head? ≠ some '*') ∧
      (c = '\'' → characterLiteral? rest = none) ∧ IsBare rest

/-- A character that plays no part in literals and comments outside them. -/
def isQuiet (c : Char) : Bool :=
  c != '"' && c != '/' && c != '\''

/-- Quiet characters in front of a bare text leave it bare. -/
theorem IsBare.append {quiet text : List Char} (hquiet : ∀ c ∈ quiet, isQuiet c = true)
    (h : IsBare text) : IsBare (quiet ++ text) := by
  induction quiet with
  | nil => exact h
  | cons c rest ih =>
      simp only [List.forall_mem_cons, isQuiet, Bool.and_eq_true, bne_iff_ne, ne_eq] at hquiet
      obtain ⟨⟨⟨hquote, hslash⟩, hsingle⟩, hrest⟩ := hquiet
      exact ⟨hquote, fun h => absurd h hslash, fun h => absurd h hsingle,
        ih (by simpa [isQuiet] using hrest)⟩

theorem isQuiet_of_mem_replicate {c : Char} (h : isQuiet c = true) (n : Nat) :
    ∀ x ∈ List.replicate n c, isQuiet x = true := by
  intro x hx
  rwa [List.eq_of_mem_replicate hx]

theorem isBare_of_isQuiet {text : List Char} (h : ∀ c ∈ text, isQuiet c = true) : IsBare text := by
  simpa using IsBare.append h (show IsBare [] from trivial)

theorem IsBare.quote_not_mem {text : List Char} (h : IsBare text) : '"' ∉ text := by
  induction text with
  | nil => exact List.not_mem_nil
  | cons c rest ih =>
      obtain ⟨hquote, _, _, hrest⟩ := h
      exact List.not_mem_cons_of_ne_of_not_mem hquote.symm (ih hrest)

/-- A raw string has a quote to open it. -/
theorem rawOpening?_eq_none {text : List Char} (h : '"' ∉ text) : rawOpening? text = none := by
  cases hopening : rawOpening? text with
  | none => rfl
  | some found =>
      obtain ⟨opening, hashes, inside⟩ := found
      rw [rawOpening?_append hopening] at h
      simp at h

/-- A bare text begins with a character that counts. -/
theorem codeLexeme_of_isBare {c : Char} {rest : List Char} (h : IsBare (c :: rest))
    (previous : Option Char) : codeLexeme previous c rest = .plain c rest := by
  obtain ⟨hquote, hslash, hsingle, _⟩ := id h
  rw [codeLexeme, if_neg fun hc => (hslash hc.1).1 hc.2, if_neg fun hc => (hslash hc.1).2 hc.2,
    if_neg hquote]
  split
  · next hc => rw [hsingle hc]
  · rw [rawOpening?_eq_none h.quote_not_mem]
    simp

/-- Masking leaves bare text as it is. -/
theorem maskFrom_of_isBare {line : List Char} (h : IsBare line) (previous : Option Char) :
    maskFrom .code previous line = (line, .code) := by
  induction line generalizing previous with
  | nil => simp [maskFrom]
  | cons c rest ih =>
      simp [maskFrom, firstLexeme, codeLexeme_of_isBare h, Lexeme.plain, ih h.2.2.2]

/-! ## A masked line is bare -/

/-- Outside code a lexeme is hidden, and what brings the text back to code is more than space. -/
theorem firstLexeme_of_ne_code {mode : Mode} (h : mode ≠ .code) (previous : Option Char) (c : Char)
    (rest : List Char) :
    ∃ hidden after beyond, firstLexeme mode previous c rest = .hide hidden after beyond ∧
      (after = .code → c ≠ ' ') := by
  cases mode with
  | code => exact absurd rfl h
  | string =>
      simp only [firstLexeme, stringLexeme]
      split
      · exact ⟨_, _, _, rfl, fun h => by cases h⟩
      · split
        · next hc => exact ⟨_, _, _, rfl, fun _ => by rw [hc]; decide⟩
        · exact ⟨_, _, _, rfl, fun h => by cases h⟩
  | rawString hashes =>
      simp only [firstLexeme, rawStringLexeme]
      split
      · next hc => exact ⟨_, _, _, rfl, fun _ => by rw [hc.1]; decide⟩
      · exact ⟨_, _, _, rfl, fun h => by cases h⟩
  | comment outer =>
      simp only [firstLexeme, commentLexeme]
      split
      · exact ⟨_, _, _, rfl, fun h => by cases h⟩
      · split
        · next hc => exact ⟨_, _, _, rfl, fun _ => by rw [hc.1]; decide⟩
        · exact ⟨_, _, _, rfl, fun h => by cases h⟩

/-- A lexeme is hidden as a whole, or it is one character that counts, or it opens a raw string. -/
theorem firstLexeme_cases (mode : Mode) (previous : Option Char) (c : Char) (rest : List Char) :
    (∃ hidden after beyond, firstLexeme mode previous c rest = .hide hidden after beyond) ∨
    (mode = .code ∧ firstLexeme mode previous c rest = .plain c rest ∧ c ≠ '"' ∧
      (c = '/' → rest.head? ≠ some '/' ∧ rest.head? ≠ some '*') ∧
      (c = '\'' → characterLiteral? rest = none)) ∨
    ∃ opening hashes inside, rawOpening? (c :: rest) = some (opening, hashes, inside) ∧
      firstLexeme mode previous c rest = ⟨opening, ['"'], .rawString hashes, inside⟩ := by
  by_cases hmode : mode = .code
  · subst hmode
    rw [firstLexeme, codeLexeme]
    by_cases hline : c = '/' ∧ rest.head? = some '/'
    · exact .inl ⟨_, _, _, if_pos hline⟩
    rw [if_neg hline]
    by_cases hblock : c = '/' ∧ rest.head? = some '*'
    · exact .inl ⟨_, _, _, if_pos hblock⟩
    rw [if_neg hblock]
    by_cases hquote : c = '"'
    · exact .inl ⟨_, _, _, if_pos hquote⟩
    rw [if_neg hquote]
    have hslash : c = '/' → rest.head? ≠ some '/' ∧ rest.head? ≠ some '*' :=
      fun hc => ⟨fun h => hline ⟨hc, h⟩, fun h => hblock ⟨hc, h⟩⟩
    by_cases hsingle : c = '\''
    · rw [if_pos hsingle]
      cases hliteral : characterLiteral? rest with
      | some found => exact .inl ⟨_, _, _, rfl⟩
      | none => exact .inr (.inl ⟨rfl, rfl, hquote, hslash, fun _ => rfl⟩)
    · rw [if_neg hsingle]
      split
      · exact .inr (.inl ⟨rfl, rfl, hquote, hslash, fun h => absurd h hsingle⟩)
      · cases hopening : rawOpening? (c :: rest) with
        | some found =>
            obtain ⟨opening, hashes, inside⟩ := found
            exact .inr (.inr ⟨opening, hashes, inside, rfl, rfl⟩)
        | none => exact .inr (.inl ⟨rfl, rfl, hquote, hslash, fun h => absurd h hsingle⟩)
  · obtain ⟨hidden, after, beyond, hlexeme, _⟩ := firstLexeme_of_ne_code hmode previous c rest
    exact .inl ⟨hidden, after, beyond, hlexeme⟩

/-- What opens a raw string, up to its quote, is two letters and hashes. -/
theorem forall_mem_rawOpening? {P : Char → Prop} (hletters : P 'r' ∧ P 'b') (hhash : P '#')
    {text opening inside : List Char} {hashes : Nat}
    (h : rawOpening? text = some (opening, hashes, inside)) : ∀ c ∈ opening, P c := by
  have hhashes (n : Nat) : ∀ c ∈ List.replicate n '#', P c :=
    fun c hc => (List.eq_of_mem_replicate hc).symm ▸ hhash
  unfold rawOpening? at h
  split at h
  · obtain ⟨_, _, heq⟩ := Option.map_eq_some_iff.mp h
    cases heq
    exact List.forall_mem_cons.mpr ⟨hletters.1, hhashes _⟩
  · obtain ⟨_, _, heq⟩ := Option.map_eq_some_iff.mp h
    cases heq
    exact List.forall_mem_cons.mpr ⟨hletters.2, List.forall_mem_cons.mpr ⟨hletters.1, hhashes _⟩⟩
  · cases h

theorem isQuiet_of_rawOpening? {text opening inside : List Char} {hashes : Nat}
    (h : rawOpening? text = some (opening, hashes, inside)) : ∀ c ∈ opening, isQuiet c = true :=
  forall_mem_rawOpening? (by decide) (by decide) h

theorem throughQuote?_eq_none_iff {text : List Char} : throughQuote? text = none ↔ '\'' ∉ text := by
  induction text with
  | nil => simp [throughQuote?]
  | cons c rest ih =>
      rw [throughQuote?]
      split
      · next hc => simp [hc]
      · next hc => simp [ih, List.mem_cons, Ne.symm hc]

/-- Masking puts no quote where there was none. -/
theorem Blanks.not_mem {masked text : List Char} (h : Blanks masked text) {c : Char}
    (hspace : c ≠ ' ') (hnot : c ∉ text) : c ∉ masked := by
  induction h with
  | nil => exact List.not_mem_nil
  | cons hhead _ ih =>
      obtain ⟨hne, hrest⟩ := not_or.mp (List.mem_cons.not.mp hnot)
      refine List.not_mem_cons_of_ne_of_not_mem ?_ (ih hrest)
      rcases hhead with rfl | rfl
      · exact hne
      · exact hspace

theorem Blanks.head?_ne {masked text : List Char} (h : Blanks masked text) {c : Char}
    (hspace : c ≠ ' ') (hne : text.head? ≠ some c) : masked.head? ≠ some c := by
  cases h with
  | nil => exact hne
  | cons hhead _ =>
      rcases hhead with rfl | rfl
      · exact hne
      · simpa using hspace.symm

/-- A quiet character that cannot begin a raw string counts wherever it stands. -/
theorem maskFrom_cons_of_isQuiet {c : Char} (hquiet : isQuiet c = true) (hr : c ≠ 'r')
    (hb : c ≠ 'b') (previous : Option Char) (rest : List Char) :
    maskFrom .code previous (c :: rest) =
      (c :: (maskFrom .code (some c) rest).1, (maskFrom .code (some c) rest).2) := by
  simp only [isQuiet, Bool.and_eq_true, bne_iff_ne, ne_eq] at hquiet
  obtain ⟨⟨hquote, hslash⟩, hsingle⟩ := hquiet
  have hplain : firstLexeme .code previous c rest = .plain c rest := by
    simp [firstLexeme, codeLexeme, hquote, hslash, hsingle, rawOpening?, hr, hb]
  rw [maskFrom, hplain]
  rfl

/-- A quote that opens no character literal still opens none when what follows is masked. -/
theorem characterLiteral?_mask (previous : Option Char) {rest : List Char}
    (h : characterLiteral? rest = none) :
    characterLiteral? (maskFrom .code previous rest).1 = none := by
  cases rest with
  | nil => simpa [maskFrom] using h
  | cons c rest =>
      by_cases hc : c = '\\'
      · -- the backslash stays, and no quote comes up behind it
        subst hc
        rw [maskFrom_cons_of_isQuiet rfl (by decide) (by decide)]
        have hmasked := blanks_maskFrom .code (some '\\') rest
        generalize (maskFrom .code (some '\\') rest).1 = masked at hmasked
        cases hmasked with
        | nil => rfl
        | cons _ hbeyond =>
            simp only [characterLiteral?, Option.map_eq_none_iff, throughQuote?_eq_none_iff] at h ⊢
            exact Blanks.not_mem hbeyond (by decide) h
      · -- the character in the next place but one is no quote
        have hmasked := blanks_maskFrom .code previous (c :: rest)
        generalize (maskFrom .code previous (c :: rest)).1 = masked at hmasked
        cases hmasked with
        | @cons m _ _ _ hhead htail =>
            have hm : m ≠ '\\' := by
              rcases hhead with rfl | rfl
              · exact hc
              · decide
            cases htail with
            | nil => simp [characterLiteral?]
            | @cons m' c' _ _ hnext _ =>
                have hm' : m' ≠ '\'' := by
                  rcases hnext with rfl | rfl
                  · rintro rfl
                    simp [characterLiteral?, hc] at h
                  · decide
                simp [characterLiteral?, hm, hm']

/-- Nothing in a masked line opens a literal or a comment. -/
theorem isBare_maskFrom (mode : Mode) (previous : Option Char) (line : List Char) :
    IsBare (maskFrom mode previous line).1 := by
  fun_induction maskFrom mode previous line with
  | case1 => trivial
  | case2 mode previous c rest lexeme after ih =>
      have hspaces := @isQuiet_of_mem_replicate ' ' rfl
      simp only [after, lexeme, List.append_assoc] at ih ⊢
      rcases firstLexeme_cases mode previous c rest with
        ⟨hidden, mode', beyond, hlexeme⟩ | ⟨rfl, hlexeme, hquote, hslash, hsingle⟩ |
        ⟨opening, hashes, inside, hopening, hlexeme⟩
      · rw [hlexeme] at ih ⊢
        rw [Lexeme.hide, List.nil_append]
        exact ih.append (hspaces _)
      · rw [hlexeme] at ih ⊢
        have hmasked := blanks_maskFrom .code (some c) rest
        exact ⟨hquote, fun hc => ⟨hmasked.head?_ne (by decide) (hslash hc).1,
          hmasked.head?_ne (by decide) (hslash hc).2⟩,
          fun hc => characterLiteral?_mask _ (hsingle hc), ih⟩
      · rw [hlexeme] at ih ⊢
        exact (ih.append (hspaces _)).append (isQuiet_of_rawOpening? hopening)

/-- Masking a masked line changes nothing, and it begins and ends in code. -/
theorem maskFrom_maskFrom (mode : Mode) (previous before : Option Char) (line : List Char) :
    maskFrom .code before (maskFrom mode previous line).1 =
      ((maskFrom mode previous line).1, .code) :=
  maskFrom_of_isBare (isBare_maskFrom mode previous line) before

/-! ## Attributes on masked lines -/

/-- A line on which something that looks like an attribute begins. -/
def opensAttribute (line : Line) : Bool :=
  startsWith ['#'] (trim line)

theorem opensAttribute_cons_of_isBlank {c : Char} (h : isBlank c = true) (rest : List Char) :
    opensAttribute (c :: rest) = opensAttribute rest := by
  simp [opensAttribute, trim, trimLeft, h]

theorem opensAttribute_of_spaces {line : Line} (h : ∀ c ∈ line, c = ' ') :
    opensAttribute line = false := by
  induction line with
  | nil => rfl
  | cons c rest ih =>
      obtain ⟨rfl, hrest⟩ := List.forall_mem_cons.mp h
      rw [opensAttribute_cons_of_isBlank rfl]
      exact ih hrest

theorem opensAttribute_cons {c : Char} (h : isBlank c = false) (rest : List Char) :
    opensAttribute (c :: rest) = ('#' == c) := by
  rw [opensAttribute, trim, trimLeft, List.dropWhile_cons_of_neg (by simp [h]), trimRight_cons h]
  simp [startsWith, List.isPrefixOf]

/-- An attribute begins with a hash. -/
theorem meaning_eq_unrelated {line : Line} (h : opensAttribute line = false) :
    Attribute.meaning (trim line) = .unrelated := by
  have hpath : Attribute.path? (trim line) = none := by
    rw [opensAttribute] at h
    generalize trim line = text at h
    unfold Attribute.path?
    split
    · cases h
    · cases h
    · rfl
  rw [Attribute.meaning, hpath]

/-- What begins on a line in code begins on the masked line. -/
theorem opensAttribute_maskFrom (previous : Option Char) {line : Line}
    (h : opensAttribute line = true) : opensAttribute (maskFrom .code previous line).1 = true := by
  induction line generalizing previous with
  | nil => cases h
  | cons c rest ih =>
      cases hblank : isBlank c with
      | true =>
          have hne {x : Char} (hx : isBlank x = false) : c ≠ x := by
            rintro rfl
            exact absurd (hblank.symm.trans hx) (by decide)
          have hquiet : isQuiet c = true := by
            simp [isQuiet, hne (x := '"') rfl, hne (x := '/') rfl, hne (x := '\'') rfl]
          rw [maskFrom_cons_of_isQuiet hquiet (hne rfl) (hne rfl),
            opensAttribute_cons_of_isBlank hblank]
          exact ih _ (by rwa [opensAttribute_cons_of_isBlank hblank] at h)
      | false =>
          rw [opensAttribute_cons hblank, beq_iff_eq] at h
          subst h
          rw [maskFrom_cons_of_isQuiet rfl (by decide) (by decide), opensAttribute_cons hblank]
          rfl

/-- A line that begins outside code and that masking does not change consists of spaces. -/
theorem eq_space_of_mask_eq_self {mode : Mode} (h : mode ≠ .code) {previous : Option Char}
    {line : Line} (hsame : (maskFrom mode previous line).1 = line) : ∀ c ∈ line, c = ' ' := by
  fun_induction maskFrom mode previous line with
  | case1 => exact fun _ hc => absurd hc List.not_mem_nil
  | case2 mode previous c rest lexeme after ih =>
      obtain ⟨hidden, mode', beyond, hlexeme, hclose⟩ := firstLexeme_of_ne_code h previous c rest
      have hline := firstLexeme_append mode previous c rest
      have htaken := firstLexeme_nonempty mode previous c rest
      simp only [after, lexeme] at ih hsame
      rw [hlexeme] at ih hsame hline htaken
      simp only [Lexeme.hide, List.nil_append, List.length_nil, Nat.zero_add]
        at ih hsame hline htaken
      obtain ⟨hspaces, hrest⟩ := List.append_inj (hsame.trans hline.symm) List.length_replicate
      have hhidden : ∀ x ∈ hidden, x = ' ' := hspaces ▸ fun x hx => List.eq_of_mem_replicate hx
      have hc : c = ' ' := by
        cases hidden with
        | nil => simp at htaken
        | cons x _ =>
            obtain ⟨rfl, _⟩ := List.cons.inj hline
            exact hhidden x List.mem_cons_self
      rw [← hline]
      exact List.forall_mem_append.mpr ⟨hhidden, ih (fun hcode => hclose hcode hc) hrest⟩

/-! ## Tracking masked lines -/

namespace State

@[simp] theorem mode_readAttribute (state : State) (line : Line) :
    (state.readAttribute line).mode = state.mode := by
  unfold readAttribute
  split
  · split
    · split <;> rfl
    · rfl
    · rfl
  · rfl

/-- What tracking a line amounts to: the attribute on it is read, and then the characters of the
masked line are taken in. -/
theorem trackLine_eq (state : State) (line : Line) :
    state.trackLine line =
      let after := visitAll ((state.readAttribute line).inMode .code) false (state.mode.mask line).1
      (if !state.scopes.isEmpty || state.pending || state.isTestAttribute line || after.2 then .test
        else .mainline,
        after.1.inMode (state.mode.mask line).2) := by
  rw [trackLine, readLine, readFrom_eq, mode_readAttribute]
  rfl

/-- A line that looks like an attribute when it is masked begins in code, if masking does not
change it. -/
theorem mode_eq_code {state : State} {line : Line}
    (h : opensAttribute (state.mode.mask line).1 = true) (hsame : (state.mode.mask line).1 = line) :
    state.mode = .code := by
  by_contra hmode
  have hspaces := eq_space_of_mask_eq_self hmode hsame
  rw [hsame, opensAttribute_of_spaces hspaces] at h
  cases h

/-- The attribute on a line is read off the masked line as well. -/
theorem readAttribute_mask {state : State} {line : Line}
    (h : opensAttribute (state.mode.mask line).1 = true → (state.mode.mask line).1 = line) :
    (state.inMode .code).readAttribute (state.mode.mask line).1 =
        (state.readAttribute line).inMode .code ∧
      (state.inMode .code).isTestAttribute (state.mode.mask line).1 =
        state.isTestAttribute line := by
  cases hopens : opensAttribute (state.mode.mask line).1 with
  | true =>
      have hsame := h hopens
      have hcode := mode_eq_code hopens hsame
      have hstate (other : State) (hother : other.mode = .code) : other.inMode .code = other :=
        hother ▸ inMode_mode other
      rw [hsame, hstate state hcode, hstate _ ((mode_readAttribute state line).trans hcode)]
      exact ⟨rfl, rfl⟩
  | false =>
      have hmasked := meaning_eq_unrelated hopens
      by_cases hcode : state.mode = .code
      · have hline : opensAttribute line = false := by
          rw [hcode] at hopens
          exact Bool.eq_false_iff.mpr fun hline =>
            Bool.eq_false_iff.mp hopens (opensAttribute_maskFrom none hline)
        simp [readAttribute, isTestAttribute, hmasked, meaning_eq_unrelated hline]
      · simp [readAttribute, isTestAttribute, hmasked, hcode]

/-- A masked line is tracked as the line is, except that no literal or comment is open after it. -/
theorem trackLine_mask {state : State} {line : Line}
    (h : opensAttribute (state.mode.mask line).1 = true → (state.mode.mask line).1 = line) :
    (state.inMode .code).trackLine (state.mode.mask line).1 =
      ((state.trackLine line).1, (state.trackLine line).2.inMode .code) := by
  obtain ⟨hattribute, htest⟩ := readAttribute_mask h
  have hmask : Mode.code.mask (state.mode.mask line).1 = ((state.mode.mask line).1, .code) :=
    maskFrom_maskFrom state.mode none none line
  rw [trackLine_eq, trackLine_eq, hattribute, htest, mode_inMode, hmask]
  rfl

end State

/-- Masked lines are tracked as the lines are, if those that look like attributes are kept. -/
theorem trackLines_maskLines {state : State} {lines : List Line}
    (h : List.Forall₂ (fun line masked => opensAttribute masked = true → masked = line)
      lines (maskLines state.mode lines)) :
    (state.inMode .code).trackLines (maskLines state.mode lines) =
      ((state.trackLines lines).1, (state.trackLines lines).2.inMode .code) := by
  induction lines generalizing state with
  | nil => rfl
  | cons line rest ih =>
      rw [maskLines] at h ⊢
      obtain ⟨hline, hrest⟩ := List.forall₂_cons.mp h
      have hmode : (state.trackLine line).2.mode = (state.mode.mask line).2 := by
        rw [State.trackLine_eq]
        rfl
      rw [← hmode] at hrest ⊢
      rw [trackLines_cons, trackLines_cons, State.trackLine_mask hline, ih hrest]

/-- **What stands in literals and comments is inert.** The roles of the lines of a file are those
of the masked lines, if every masked line that looks like an attribute is the line itself. -/
theorem lineRoles_maskLines (lines : List Line)
    (h : List.Forall₂ (fun line masked => startsWith ['#'] (trim masked) = true → masked = line)
      lines (maskLines .code lines)) :
    lineRoles (maskLines .code lines) = lineRoles lines := by
  have hlines : State.start.trackLines (maskLines .code lines) =
      ((State.start.trackLines lines).1, (State.start.trackLines lines).2.inMode .code) :=
    @trackLines_maskLines State.start lines h
  simp only [lineRoles, State.track, hlines]
  rfl

/-- A raw string, a character, nested comments and a string that goes on in a line which looks like
an attribute: none of the braces in them ends the test early. -/
theorem lineRoles_maskLines_of_braces :
    let lines : List Line :=
      ["#[test]".toList,
        "fn f()\x7b//\x7d".toList,
        "r#\"\x7d\\\"#;'\x7d'/*\x7d/**/".toList,
        "*/s=\"\x7d\\\"".toList,
        "#[test]\x7d\";\x7d".toList,
        "mod g;".toList]
    let masked : List Line :=
      ["#[test]".toList,
        "fn f()\x7b   ".toList,
        "r#     ;          ".toList,
        "  s=    ".toList,
        "         ;\x7d".toList,
        "mod g;".toList]
    maskLines .code lines = masked ∧
    List.Forall₂ (fun line masked => startsWith ['#'] (trim masked) = true → masked = line)
      lines (maskLines .code lines) ∧
    lineRoles (maskLines .code lines) = lineRoles lines ∧
    lineRoles lines = [.test, .test, .test, .test, .test, .mainline] := by
  intro lines masked
  have hmasked : maskLines .code lines = masked := by decide +kernel
  have hkept : List.Forall₂
      (fun line masked => startsWith ['#'] (trim masked) = true → masked = line)
      lines (maskLines .code lines) := by
    rw [hmasked]
    simp only [lines, masked, List.forall₂_cons, List.forall₂_nil_left_iff]
    decide +kernel
  exact ⟨hmasked, hkept, lineRoles_maskLines lines hkept, by decide +kernel⟩

end LineCensus.Rust
