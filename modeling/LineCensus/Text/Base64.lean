/-
# Bytes written with sixty-four characters

Every four characters stand for three bytes. What is not one of the sixty-four
characters has no meaning and is passed over. The end may be padded; text after the
padding does not count.
-/

import LineCensus.Text.Search

namespace LineCensus.Text.Base64

/-- The value of a character. -/
def digit? (c : Char) : Option Nat :=
  if 'A' ≤ c ∧ c ≤ 'Z' then some (c.toNat - 'A'.toNat)
  else if 'a' ≤ c ∧ c ≤ 'z' then some (c.toNat - 'a'.toNat + 26)
  else if '0' ≤ c ∧ c ≤ '9' then some (c.toNat - '0'.toNat + 52)
  else if c = '+' then some 62
  else if c = '/' then some 63
  else none

/-- Reads on after the characters of an unfinished group of four with the given values, and so many
paddings. The last group may lack a byte or two if it is padded. -/
def decodeAfter? (group : List Nat) (paddings : Nat) : List Char → Option (List UInt8)
  | [] => if group.isEmpty then some [] else none
  | c :: rest =>
    if c = '=' ∧ 2 ≤ group.length ∧ 4 ≤ group.length + paddings + 1 then some []
    else if c = '=' ∧ 2 ≤ group.length then decodeAfter? group (paddings + 1) rest
    else match digit? c with
      | none => decodeAfter? group paddings rest
      | some value =>
        match group with
        | [] => decodeAfter? [value] 0 rest
        | [a] => (decodeAfter? [a, value] 0 rest).map (UInt8.ofNat (a * 4 + value / 16) :: ·)
        | [a, b] =>
          (decodeAfter? [a, b, value] 0 rest).map (UInt8.ofNat (b % 16 * 16 + value / 4) :: ·)
        | _ :: _ :: c :: _ =>
          (decodeAfter? [] 0 rest).map (UInt8.ofNat (c % 4 * 64 + value) :: ·)

/-- The bytes that a text stands for, unless its end is missing. -/
def decode? (text : List Char) : Option (List UInt8) :=
  decodeAfter? [] 0 text

end LineCensus.Text.Base64
