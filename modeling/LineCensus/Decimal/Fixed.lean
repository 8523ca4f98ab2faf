/-
# Numbers with a fixed number of decimals

The exact value of a number is rounded to the given number of places, and a tie goes
to the even digit. The sign stays even if only zeros are left of the number.
-/

import LineCensus.Decimal.Binary64
import LineCensus.Text.Integer

namespace LineCensus.Binary64

/-- A whole number of units of ten to the minus `places`, written with a point. -/
def pointed (places units : Nat) : List Char :=
  let digits := Text.naturalDigits units
  let padded := List.replicate (places + 1 - digits.length) '0' ++ digits
  padded.take (padded.length - places) ++ '.' :: padded.drop (padded.length - places)

/-- A sign in front of a number that has one. -/
def withSign (negative : Bool) (text : List Char) : String :=
  String.ofList (if negative then '-' :: text else text)

/-- A number with a positive number of decimals. -/
def fixed (places : Nat) : Binary64 → String
  | finite negative mantissa exponent =>
    let (num, den) := scale (mantissa * tenTo places) 1 exponent
    withSign negative (pointed places (roundQuotient num den))
  | infinite negative => withSign negative ['i', 'n', 'f']
  | nan => "nan"

end LineCensus.Binary64
