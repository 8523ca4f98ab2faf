/-
# Integers in decimal

Reading an integer that a person typed. White space around it is allowed, a sign
may come first, the digits may be those of any script, and single underscores may
separate them. A text of more than 4300 digits is refused, leading zeros counted,
so that reading one takes bounded work.
-/

import LineCensus.Text.Blank
import LineCensus.Text.Digit

namespace LineCensus.Text

/-- The most digits an integer may be written with. -/
def maxIntegerDigits : Nat := 4300

/-- White space that may surround an integer: all but the information separators, which count as
white space elsewhere. -/
def isIntegerMargin (c : Char) : Bool :=
  isBlank c && !(0x1c ≤ c.toNat && c.toNat ≤ 0x1f)

/-- The value of digits of which single underscores may stand between two. `value` is that of the
digits before. -/
def readDigitsAfter (value : Nat) : List Char → Option Nat
  | [] => some value
  | '_' :: c :: rest => do readDigitsAfter (value * 10 + (← digitValue? c)) rest
  | c :: rest => do readDigitsAfter (value * 10 + (← digitValue? c)) rest

/-- The value of a nonempty sequence of digits. -/
def readDigits? : List Char → Option Nat
  | [] => none
  | c :: rest => do
    let first ← digitValue? c
    if (c :: rest).countP (· != '_') ≤ maxIntegerDigits then readDigitsAfter first rest else none

/-- A text without white space around it, as far as an integer may have some. -/
def withoutMargin (text : List Char) : List Char :=
  ((text.dropWhile isIntegerMargin).reverse.dropWhile isIntegerMargin).reverse

/-- The integer that a text denotes. -/
def readInteger? (text : List Char) : Option Int :=
  match withoutMargin text with
  | '-' :: digits => (readDigits? digits).map fun n => -(n : Int)
  | '+' :: digits => (readDigits? digits).map fun n => (n : Int)
  | digits => (readDigits? digits).map fun n => (n : Int)

/-- The digits of a natural number, without leading zeros. -/
def naturalDigits (n : Nat) : List Char :=
  Nat.toDigits 10 n

/-- The decimal text of an integer. -/
def integerText (value : Int) : String :=
  if value < 0 then String.ofList ('-' :: naturalDigits value.natAbs)
  else String.ofList (naturalDigits value.natAbs)

end LineCensus.Text
