/-
# Reading a number

A decimal text denotes the number nearest to its exact value. White space around it is
allowed, and the digits may be those of any script. Numbers that are far too great or far
too small for the format are told by their order of magnitude, so that reading one takes
work in proportion to its text.
-/

import LineCensus.Decimal.Binary64
import LineCensus.Text.Integer

namespace LineCensus.Binary64

open Text

/-- The value of ASCII digits. -/
def digitsValue (digits : List Char) : Nat :=
  digits.foldl (fun value c => value * 10 + (c.toNat - '0'.toNat)) 0

/-- The number nearest to a whole number times a power of ten. -/
def ofMagnitude (negative : Bool) (digits : Nat) (power : Int) : Binary64 :=
  let magnitude : Int := (naturalDigits digits).length + power
  if digits = 0 ∨ magnitude < -400 then finite negative 0 (-1074)
  else if 400 < magnitude then infinite negative
  else round negative (digits * tenTo power.toNat) (tenTo (-power).toNat)

/-- The exponent that a text denotes. The empty one denotes zero. -/
def readExponent? : List Char → Option Int
  | [] => some 0
  | e :: rest =>
    if e ≠ 'e' ∧ e ≠ 'E' then none
    else
      let (negative, digits) := match rest with
        | '-' :: digits => (true, digits)
        | '+' :: digits => (false, digits)
        | digits => (false, digits)
      if digits.isEmpty ∨ !digits.all Char.isDigit then none
      else some (if negative then -(digitsValue digits : Int) else digitsValue digits)

/-- The names of infinity, in lower case. -/
def infinityNames : List String := ["inf", "infinity"]

/-- The number that a text without a sign denotes: digits with or without a point among them, and
an exponent; or, in capitals or not, a name of something that is not a number or not finite. -/
def readUnsigned? (negative : Bool) (text : List Char) : Option Binary64 :=
  let lowered := String.ofList (text.map Char.toLower)
  if infinityNames.contains lowered then some (infinite negative)
  else if lowered = "nan" then some nan
  else
    let whole := text.takeWhile Char.isDigit
    let (decimals, rest) := match text.drop whole.length with
      | '.' :: rest => (rest.takeWhile Char.isDigit, rest.dropWhile Char.isDigit)
      | rest => ([], rest)
    if whole.isEmpty ∧ decimals.isEmpty then none
    else
      (readExponent? rest).map fun exponent =>
        ofMagnitude negative (digitsValue (whole ++ decimals)) (exponent - decimals.length)

/-- A digit of any script as one of ASCII. Other characters stay. -/
def plainDigit (c : Char) : Char :=
  match digitValue? c with
  | some value => Char.ofNat ('0'.toNat + value)
  | none => c

/-- The number that a text denotes. -/
def read? (text : List Char) : Option Binary64 :=
  match (withoutMargin text).map plainDigit with
  | '-' :: text => readUnsigned? true text
  | '+' :: text => readUnsigned? false text
  | text => readUnsigned? false text

end LineCensus.Binary64
