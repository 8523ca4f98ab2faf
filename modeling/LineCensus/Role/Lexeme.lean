/-
# Literals and comments in Rust

Braces, brackets and semicolons give a Rust file its structure only outside literals
and comments. This module splits a line into lexemes, each with the characters that
count and the characters that do not. Strings, raw strings and block comments may go
on over several lines, and the mode says which of them is open.

A character literal is told from a lifetime by looking for its closing quote: two
places on, or after a backslash anywhere in the rest of the line.
-/

import LineCensus.Text.Alphanumeric
import LineCensus.Text.Search

namespace LineCensus.Rust

open Text

/-- What the text is part of. Two of these are never open at once. -/
inductive Mode where
  /-- No literal and no comment. -/
  | code
  /-- A string, in which a backslash escapes the next character. -/
  | string
  /-- A raw string that ends at a quote and this many hashes. -/
  | rawString (hashes : Nat)
  /-- A block comment with this many block comments around it. -/
  | comment (outer : Nat)
deriving DecidableEq, Repr

/-- A piece of a line: first characters that count, then characters that do not. -/
structure Lexeme where
  visible : List Char
  hidden : List Char
  /-- The mode after the piece. -/
  mode : Mode
  /-- The line after the piece. -/
  rest : List Char

namespace Lexeme

/-- A character that counts. -/
def plain (c : Char) (rest : List Char) : Lexeme := ⟨[c], [], .code, rest⟩

/-- Characters that do not count. -/
def hide (characters : List Char) (mode : Mode) (rest : List Char) : Lexeme :=
  ⟨[], characters, mode, rest⟩

def last? (lexeme : Lexeme) : Option Char :=
  (lexeme.visible ++ lexeme.hidden).getLast?

end Lexeme

/-- The number of hashes in front of a quote, on top of those already seen, and what follows the
quote. -/
def hashesToQuote? (seen : Nat) : List Char → Option (Nat × List Char)
  | '#' :: rest => hashesToQuote? (seen + 1) rest
  | '"' :: rest => some (seen, rest)
  | _ => none

/-- The letters and hashes that open a raw string, the number of hashes, and what follows the
quote. -/
def rawOpening? : List Char → Option (List Char × Nat × List Char)
  | 'r' :: rest =>
    (hashesToQuote? 0 rest).map fun (hashes, inside) =>
      ('r' :: List.replicate hashes '#', hashes, inside)
  | 'b' :: 'r' :: rest =>
    (hashesToQuote? 0 rest).map fun (hashes, inside) =>
      ('b' :: 'r' :: List.replicate hashes '#', hashes, inside)
  | _ => none

/-- What a text holds up to its first single quote, the quote included, and what follows. -/
def throughQuote? : List Char → Option (List Char × List Char)
  | [] => none
  | c :: rest =>
    if c = '\'' then some ([c], rest)
    else (throughQuote? rest).map fun (inside, beyond) => (c :: inside, beyond)

/-- The rest of a character literal after its opening quote, and what follows the literal. -/
def characterLiteral? : List Char → Option (List Char × List Char)
  | '\\' :: c :: rest => (throughQuote? rest).map fun (inside, beyond) => ('\\' :: c :: inside, beyond)
  | c :: '\'' :: rest => if c = '\\' then none else some ([c, '\''], rest)
  | _ => none

/-- The first lexeme of a line that begins with `c` and is in code. `previous` is the character
before it on the line. -/
def codeLexeme (previous : Option Char) (c : Char) (rest : List Char) : Lexeme :=
  if c = '/' ∧ rest.head? = some '/' then .hide (c :: rest) .code []
  else if c = '/' ∧ rest.head? = some '*' then .hide (c :: rest.take 1) (.comment 0) (rest.drop 1)
  else if c = '"' then .hide [c] .string rest
  else if c = '\'' then
    match characterLiteral? rest with
    | some (inside, beyond) => .hide (c :: inside) .code beyond
    | none => .plain c rest
  else if previous.any isWordChar then .plain c rest
  else match rawOpening? (c :: rest) with
    | some (opening, hashes, inside) => ⟨opening, ['"'], .rawString hashes, inside⟩
    | none => .plain c rest

/-- The first lexeme of a line that begins with `c` and is in a block comment. -/
def commentLexeme (outer : Nat) (c : Char) (rest : List Char) : Lexeme :=
  if c = '/' ∧ rest.head? = some '*' then
    .hide (c :: rest.take 1) (.comment (outer + 1)) (rest.drop 1)
  else if c = '*' ∧ rest.head? = some '/' then
    .hide (c :: rest.take 1) (match outer with | 0 => .code | n + 1 => .comment n) (rest.drop 1)
  else .hide [c] (.comment outer) rest

/-- The first lexeme of a line that begins with `c` and is in a string. -/
def stringLexeme (c : Char) (rest : List Char) : Lexeme :=
  if c = '\\' then .hide (c :: rest.take 1) .string (rest.drop 1)
  else if c = '"' then .hide [c] .code rest
  else .hide [c] .string rest

/-- The first lexeme of a line that begins with `c` and is in a raw string. -/
def rawStringLexeme (hashes : Nat) (c : Char) (rest : List Char) : Lexeme :=
  if c = '"' ∧ startsWith (List.replicate hashes '#') rest then
    .hide (c :: rest.take hashes) .code (rest.drop hashes)
  else .hide [c] (.rawString hashes) rest

/-- The first lexeme of a line that begins with `c`. -/
def firstLexeme (mode : Mode) (previous : Option Char) (c : Char) (rest : List Char) : Lexeme :=
  match mode with
  | .code => codeLexeme previous c rest
  | .string => stringLexeme c rest
  | .rawString hashes => rawStringLexeme hashes c rest
  | .comment outer => commentLexeme outer c rest

theorem hashesToQuote?_append {seen hashes : Nat} {text inside : List Char}
    (h : hashesToQuote? seen text = some (hashes, inside)) :
    text = List.replicate (hashes - seen) '#' ++ '"' :: inside ∧ seen ≤ hashes := by
  fun_induction hashesToQuote? seen text with
  | case1 seen rest ih =>
    obtain ⟨shape, bound⟩ := ih h
    refine ⟨?_, by omega⟩
    have count : hashes - seen = (hashes - (seen + 1)) + 1 := by omega
    rw [count, List.replicate_succ, List.cons_append, ← shape]
  | case2 seen rest =>
    simp only [Option.some.injEq, Prod.mk.injEq] at h
    obtain ⟨rfl, rfl⟩ := h
    simp
  | case3 => simp at h

theorem rawOpening?_append {text opening inside : List Char} {hashes : Nat}
    (h : rawOpening? text = some (opening, hashes, inside)) :
    text = opening ++ '"' :: inside := by
  unfold rawOpening? at h
  split at h
  · simp only [Option.map_eq_some_iff, Prod.exists, Prod.mk.injEq] at h
    obtain ⟨_, _, found, rfl, rfl, rfl⟩ := h
    simp [(hashesToQuote?_append found).1]
  · simp only [Option.map_eq_some_iff, Prod.exists, Prod.mk.injEq] at h
    obtain ⟨_, _, found, rfl, rfl, rfl⟩ := h
    simp [(hashesToQuote?_append found).1]
  · simp at h

theorem throughQuote?_append {text inside beyond : List Char}
    (h : throughQuote? text = some (inside, beyond)) : text = inside ++ beyond := by
  induction text generalizing inside with
  | nil => simp [throughQuote?] at h
  | cons c rest ih =>
    rw [throughQuote?] at h
    split at h
    · simp only [Option.some.injEq, Prod.mk.injEq] at h
      obtain ⟨rfl, rfl⟩ := h
      rfl
    · simp only [Option.map_eq_some_iff, Prod.exists, Prod.mk.injEq] at h
      obtain ⟨_, _, found, rfl, rfl⟩ := h
      rw [List.cons_append, ← ih found]

theorem characterLiteral?_append {text inside beyond : List Char}
    (h : characterLiteral? text = some (inside, beyond)) : text = inside ++ beyond := by
  unfold characterLiteral? at h
  split at h
  · simp only [Option.map_eq_some_iff, Prod.exists, Prod.mk.injEq] at h
    obtain ⟨_, _, found, rfl, rfl⟩ := h
    simp [throughQuote?_append found]
  · split at h
    · simp at h
    · simp only [Option.some.injEq, Prod.mk.injEq] at h
      obtain ⟨rfl, rfl⟩ := h
      rfl
  · simp at h

private theorem take_one_append_tail (text : List Char) : text.take 1 ++ text.tail = text := by
  cases text <;> rfl

/-- A lexeme and what follows it are the line: no character is lost, added or moved. -/
theorem firstLexeme_append (mode : Mode) (previous : Option Char) (c : Char) (rest : List Char) :
    (firstLexeme mode previous c rest).visible ++ (firstLexeme mode previous c rest).hidden ++
      (firstLexeme mode previous c rest).rest = c :: rest := by
  cases mode with
  | string =>
    simp only [firstLexeme, stringLexeme]
    split
    · simp [Lexeme.hide, take_one_append_tail]
    · split <;> simp [Lexeme.hide]
  | rawString hashes =>
    simp only [firstLexeme, rawStringLexeme]
    split <;> simp [Lexeme.hide]
  | comment outer =>
    simp only [firstLexeme, commentLexeme]
    split
    · simp [Lexeme.hide, take_one_append_tail]
    · split <;> simp [Lexeme.hide, take_one_append_tail]
  | code =>
    simp only [firstLexeme, codeLexeme]
    split
    · simp [Lexeme.hide]
    · split
      · simp [Lexeme.hide, take_one_append_tail]
      · split
        · simp [Lexeme.hide]
        · split
          · split
            · next found => simp [Lexeme.hide, characterLiteral?_append found]
            · simp [Lexeme.plain]
          · split
            · simp [Lexeme.plain]
            · split
              · next found => simp [rawOpening?_append found]
              · simp [Lexeme.plain]

/-- A lexeme holds at least one character. -/
theorem firstLexeme_nonempty (mode : Mode) (previous : Option Char) (c : Char)
    (rest : List Char) :
    0 < (firstLexeme mode previous c rest).visible.length +
      (firstLexeme mode previous c rest).hidden.length := by
  cases mode with
  | string =>
    simp only [firstLexeme, stringLexeme]
    split
    · simp [Lexeme.hide]
    · split <;> simp [Lexeme.hide]
  | rawString hashes =>
    simp only [firstLexeme, rawStringLexeme]
    split <;> simp [Lexeme.hide]
  | comment outer =>
    simp only [firstLexeme, commentLexeme]
    split
    · simp [Lexeme.hide]
    · split <;> simp [Lexeme.hide]
  | code =>
    simp only [firstLexeme, codeLexeme]
    repeat' split
    all_goals simp [Lexeme.hide, Lexeme.plain]

/-- What follows a lexeme is shorter than the line. -/
theorem length_rest_firstLexeme (mode : Mode) (previous : Option Char) (c : Char)
    (rest : List Char) :
    (firstLexeme mode previous c rest).rest.length < (c :: rest).length := by
  have whole := congrArg List.length (firstLexeme_append mode previous c rest)
  have taken := firstLexeme_nonempty mode previous c rest
  simp only [List.length_append] at whole
  omega

end LineCensus.Rust
