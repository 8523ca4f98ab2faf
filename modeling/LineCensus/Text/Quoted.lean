/-
# Quoted names

A name in an error message stands between quotes. They are single quotes, unless the
name holds one and no double quote. A backslash, the quote itself and every character
that cannot be shown are written as escapes.
-/

import LineCensus.Text.Printable

namespace LineCensus.Text

/-- The lower-case hexadecimal digits of a number, with zeros in front up to a width. -/
def hexDigits (width n : Nat) : List Char :=
  let digits := Nat.toDigits 16 n
  List.replicate (width - digits.length) '0' ++ digits

/-- A character that cannot be shown, by its code point. -/
def codePointEscape (c : Char) : List Char :=
  let n := c.toNat
  if n < 0x100 then '\\' :: 'x' :: hexDigits 2 n
  else if n < 0x10000 then '\\' :: 'u' :: hexDigits 4 n
  else '\\' :: 'U' :: hexDigits 8 n

/-- A character as it is written between the given quotes. -/
def escapeChar (quote c : Char) : List Char :=
  if c = quote ∨ c = '\\' then ['\\', c]
  else if c = '\n' then ['\\', 'n']
  else if c = '\r' then ['\\', 'r']
  else if c = '\t' then ['\\', 't']
  else if isPrintable c then [c]
  else codePointEscape c

/-- The quote that a name is put between. -/
def quoteFor (name : List Char) : Char :=
  if '\'' ∈ name ∧ '"' ∉ name then '"' else '\''

/-- A name between quotes. -/
def quoted (name : String) : String :=
  let quote := quoteFor name.toList
  String.ofList (quote :: name.toList.flatMap (escapeChar quote) ++ [quote])

end LineCensus.Text
