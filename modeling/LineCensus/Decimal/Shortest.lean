/-
# The shortest text of a number

A number is written with the fewest digits that read back as the same number, and of
those the nearest to its exact value. The digits of a value are the multiples of a
power of ten, so the search goes from coarse powers to fine ones and stops at the
first that has a multiple among the reals which round to the number.
-/

import LineCensus.Decimal.Fixed

namespace LineCensus.Binary64

/-- A whole number and the power of ten that it counts. -/
structure Decimal where
  digits : Nat
  power : Int
deriving DecidableEq, Repr

/-- The numerator and the denominator of a decimal over a power of two, for comparison with whole
numbers of that power. -/
def Decimal.over (decimal : Decimal) (exponent : Int) : Nat × Nat :=
  scale (decimal.digits * tenTo decimal.power.toNat) (tenTo (-decimal.power).toNat) (-exponent)

/-- Whether a decimal rounds to the number with the given mantissa and exponent. The comparison is
in quarters of the last place, because the gap below a power of two is half the one above. -/
def readsBack (mantissa : Nat) (exponent : Int) (decimal : Decimal) : Bool :=
  let isNarrow := mantissa = twoTo 52 ∧ -1074 < exponent
  let low := if isNarrow then 4 * mantissa - 1 else 4 * mantissa - 2
  let high := 4 * mantissa + 2
  let (num, den) := decimal.over (exponent - 2)
  if mantissa % 2 = 0 then low * den ≤ num && num ≤ high * den
  else low * den < num && num < high * den

/-- The neighbours of a number among the multiples of a power of ten, the nearer one first and of
two at the same distance the even one. -/
def neighbours (mantissa : Nat) (exponent power : Int) : List Decimal :=
  let (num, den) := scale (mantissa * tenTo (-power).toNat) (tenTo power.toNat) exponent
  let below : Decimal := ⟨num / den, power⟩
  let above : Decimal := ⟨num / den + 1, power⟩
  if roundQuotient num den = num / den then [below, above] else [above, below]

/-- A power of ten that exceeds a positive number. -/
def powerAbove (mantissa : Nat) (exponent : Int) : Int :=
  (exponent + Nat.log2 mantissa + 1) * 30103 / 100000 + 1

/-- The shortest decimal that reads back as a positive number. Twenty powers suffice, since
seventeen digits always do; past them the exact value is meant. -/
def shortestDecimal (mantissa : Nat) (exponent : Int) : Decimal :=
  let start := powerAbove mantissa exponent
  let candidates := (List.range 20).flatMap fun (step : Nat) =>
    (neighbours mantissa exponent (start - step)).filter (readsBack mantissa exponent)
  candidates.headD
    ⟨mantissa * twoTo exponent.toNat * Nat.pow 5 (-exponent).toNat, min exponent 0⟩

/-- An exponent with its sign and at least two digits. -/
def exponentText (exponent : Int) : List Char :=
  let digits := Text.naturalDigits exponent.natAbs
  'e' :: (if exponent < 0 then '-' else '+') :: List.replicate (2 - digits.length) '0' ++ digits

/-- A decimal as text. Its value is positional from one ten-thousandth up to below ten to the
sixteenth, with a point and at least one decimal, and has an exponent otherwise. -/
def Decimal.text (decimal : Decimal) : List Char :=
  let digits := Text.naturalDigits decimal.digits
  let point : Int := digits.length + decimal.power
  if -4 < point ∧ point ≤ 0 then
    ['0', '.'] ++ List.replicate (-point).toNat '0' ++ digits
  else if 0 < point ∧ point ≤ 16 then
    if 0 ≤ decimal.power then
      digits ++ List.replicate decimal.power.toNat '0' ++ ['.', '0']
    else digits.take point.toNat ++ '.' :: digits.drop point.toNat
  else
    let mantissa := match digits with
      | first :: [] => [first]
      | first :: others => first :: '.' :: others
      | [] => []
    mantissa ++ exponentText (point - 1)

/-- The shortest text of a number. -/
def shortest : Binary64 → String
  | finite negative mantissa exponent =>
    withSign negative
      (if mantissa = 0 then ['0', '.', '0'] else (shortestDecimal mantissa exponent).text)
  | infinite negative => withSign negative ['i', 'n', 'f']
  | nan => "nan"

end LineCensus.Binary64
