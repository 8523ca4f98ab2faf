/-
# Binary floating-point numbers

Numbers of 64 bits as the reports and the configuration use them. A finite number is a
sign, a whole mantissa and a power of two, and every operation is defined as the exact
result rounded to the nearest number, a tie going to the even mantissa. Nothing here
depends on the floating-point unit.
-/

namespace LineCensus

/-- A number of the format. -/
inductive Binary64 where
  /-- The mantissa times two to the exponent. -/
  | finite (negative : Bool) (mantissa : Nat) (exponent : Int)
  | infinite (negative : Bool)
  | nan
deriving DecidableEq, Repr

namespace Binary64

def twoTo (power : Nat) : Nat := Nat.pow 2 power

def tenTo (power : Nat) : Nat := Nat.pow 10 power

def zero : Binary64 := finite false 0 (-1074)

/-- The quotient of two natural numbers to the nearest one, a tie going to the even neighbour. -/
def roundQuotient (num den : Nat) : Nat :=
  let rest := num % den
  if 2 * rest < den ∨ (2 * rest = den ∧ num / den % 2 = 0) then num / den else num / den + 1

/-- The numerator and the denominator of a fraction times a power of two. -/
def scale (num den : Nat) (power : Int) : Nat × Nat :=
  (num * twoTo power.toNat, den * twoTo (-power).toNat)

/-- The exponent that leaves 53 bits in the mantissa of a positive fraction, unless that is below
the least exponent there is. -/
def exponentFor (num den : Nat) : Int :=
  let guess : Int := (Nat.log2 num : Int) - Nat.log2 den
  let (scaled, unit) := scale num den (-guess)
  max (if scaled < unit then guess - 53 else guess - 52) (-1074)

/-- The number nearest to a fraction with a positive denominator. -/
def round (negative : Bool) (num den : Nat) : Binary64 :=
  if num = 0 then finite negative 0 (-1074)
  else
    let exponent := exponentFor num den
    let (scaled, unit) := scale num den (-exponent)
    let mantissa := roundQuotient scaled unit
    let (mantissa, exponent) :=
      if mantissa = twoTo 53 then (twoTo 52, exponent + 1) else (mantissa, exponent)
    if 971 < exponent then infinite negative else finite negative mantissa exponent

/-- The quotient of two integers, rounded once. The divisor is not zero. -/
def ofRatio (num den : Int) : Binary64 :=
  round (decide (num < 0) != decide (den < 0)) num.natAbs den.natAbs

/-- The number nearest to an integer. -/
def ofInt (value : Int) : Binary64 := ofRatio value 1

/-- The number nearest to an integer times a power of ten. -/
def ofDecimal (digits : Int) (power : Int) : Binary64 :=
  round (decide (digits < 0)) (digits.natAbs * tenTo power.toNat) (tenTo (-power).toNat)

def signed (negative : Bool) (mantissa : Nat) : Int :=
  if negative then -(mantissa : Int) else mantissa

/-- The sum of two mantissas at the lower of two exponents, and that exponent. -/
def alignedSum (a : Int) (p : Int) (b : Int) (q : Int) : Int × Int :=
  let low := min p q
  (a * twoTo (p - low).toNat + b * twoTo (q - low).toNat, low)

/-- A whole number times a power of two, rounded. `zeroNegative` is the sign of a zero. -/
def ofScaled (value : Int) (exponent : Int) (zeroNegative : Bool) : Binary64 :=
  let (num, den) := scale value.natAbs 1 exponent
  round (if value = 0 then zeroNegative else decide (value < 0)) num den

/-- The number with the other sign. -/
def neg : Binary64 → Binary64
  | finite negative mantissa exponent => finite (!negative) mantissa exponent
  | infinite negative => infinite (!negative)
  | nan => nan

/-- The sum. -/
def add : Binary64 → Binary64 → Binary64
  | finite s m p, finite t n q =>
    let (sum, exponent) := alignedSum (signed s m) p (signed t n) q
    ofScaled sum exponent (s && t)
  | infinite s, infinite t => if s = t then infinite s else nan
  | infinite s, finite .. | finite .., infinite s => infinite s
  | nan, _ | _, nan => nan

/-- The difference. -/
def sub (a b : Binary64) : Binary64 := a.add b.neg

/-- The product. -/
def mul : Binary64 → Binary64 → Binary64
  | finite s m p, finite t n q =>
    let (num, den) := scale (m * n) 1 (p + q)
    round (s != t) num den
  | infinite s, finite t n _ | finite t n _, infinite s => if n = 0 then nan else infinite (s != t)
  | infinite s, infinite t => infinite (s != t)
  | nan, _ | _, nan => nan

/-- The quotient. There is none by zero. -/
def div : Binary64 → Binary64 → Binary64
  | finite s m p, finite t n q =>
    if n = 0 then nan
    else
      let (num, den) := scale m n (p - q)
      round (s != t) num den
  | finite s _ _, infinite t => finite (s != t) 0 (-1074)
  | infinite s, finite t _ _ => infinite (s != t)
  | _, _ => nan

/-- Whether one number is at most another. -/
def atMost : Binary64 → Binary64 → Bool
  | finite s m p, finite t n q => decide ((alignedSum (signed t n) q (-signed s m) p).1 ≥ 0)
  | infinite s, infinite t => s || !t
  | infinite s, finite .. => s
  | finite .., infinite t => !t
  | nan, _ | _, nan => false

/-- The bits of a number, as a natural number. -/
def bits : Binary64 → Nat
  | finite negative mantissa exponent =>
    (if negative then twoTo 63 else 0) +
      (if mantissa < twoTo 52 then mantissa
       else (exponent + 1075).toNat * twoTo 52 + (mantissa - twoTo 52))
  | infinite negative => (if negative then twoTo 63 else 0) + 2047 * twoTo 52
  | nan => 4095 * twoTo 51

end Binary64

end LineCensus
