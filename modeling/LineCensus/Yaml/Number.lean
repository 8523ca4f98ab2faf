/-
# Numbers in YAML

Which plain scalars are numbers, and what they denote. Underscores may stand among the
digits and mean nothing. Integers may be binary, octal, decimal, hexadecimal or in base
sixty; other numbers have a point, an exponent only with a sign, and may be in base
sixty as well.

A scalar that a tag declares to be a number has more freedom: there may be white space
and a second sign in it, the mark of its base may come twice, and the digits may be those
of any script.
-/

import LineCensus.Decimal.Reading
import LineCensus.Text.LowerCase
import LineCensus.Text.Search
import LineCensus.Yaml.QuotedScalar

namespace LineCensus.Yaml

open Text

/-- Whether a character is a decimal digit or an underscore. -/
def isDigitPlace (c : Char) : Bool :=
  c.isDigit || c == '_'

/-- A text without its sign. -/
def withoutSign : List Char → List Char
  | '-' :: text => text
  | '+' :: text => text
  | text => text

/-- Whether a text is a part of a number in base sixty after its first one. -/
def isSexagesimalPart : List Char → Bool
  | [c] => c.isDigit
  | [c, d] => '0' ≤ c && c ≤ '5' && d.isDigit
  | _ => false

/-- Whether a text is at least one part of a number in base sixty, each after a colon. -/
def areSexagesimalParts (text : List Char) : Bool :=
  match splitOn ':' text with
  | [] :: part :: parts => (part :: parts).all isSexagesimalPart
  | _ => false

/-- Whether a text without a tag is understood as an integer. -/
def isInteger (text : List Char) : Bool :=
  match withoutSign text with
  | ['0'] => true
  | '0' :: 'b' :: c :: rest => (c :: rest).all fun c => c == '0' || c == '1' || c == '_'
  | '0' :: 'x' :: c :: rest => (c :: rest).all fun c => (hexValue? c).isSome || c == '_'
  | '0' :: rest => rest.all fun c => ('0' ≤ c && c ≤ '7') || c == '_'
  | c :: rest =>
    c.isDigit &&
      ((rest.dropWhile isDigitPlace).isEmpty ||
        areSexagesimalParts (rest.dropWhile isDigitPlace))
  | [] => false

/-- Whether a text is an exponent with its sign, or empty. -/
def isExponent : List Char → Bool
  | [] => true
  | e :: sign :: c :: rest =>
    (e == 'e' || e == 'E') && (sign == '-' || sign == '+') && (c :: rest).all Char.isDigit
  | _ => false

/-- What a number without a sign may be called instead of being written in digits. -/
def isInfinityName (text : List Char) : Bool :=
  [['.', 'i', 'n', 'f'], ['.', 'I', 'n', 'f'], ['.', 'I', 'N', 'F']].contains text

/-- What stands for something that is not a number. -/
def isNanName (text : List Char) : Bool :=
  [['.', 'n', 'a', 'n'], ['.', 'N', 'a', 'N'], ['.', 'N', 'A', 'N']].contains text

/-- Whether a text without a tag is understood as a number that is not an integer. Without digits
in front of its point it has no sign. -/
def isReal (text : List Char) : Bool :=
  isNanName text || isInfinityName (withoutSign text) ||
    match text, withoutSign text with
    | '.' :: c :: rest, _ => c.isDigit && isExponent (rest.dropWhile isDigitPlace)
    | _, c :: rest =>
      c.isDigit &&
        match rest.span isDigitPlace with
        | (_, '.' :: decimals) => isExponent (decimals.dropWhile isDigitPlace)
        | (_, others) =>
          areSexagesimalParts (others.takeWhile (· != '.')) &&
            match others.dropWhile (· != '.') with
            | '.' :: decimals => decimals.all isDigitPlace
            | _ => false
    | _, [] => false

/-- The value of digits in a base of at most sixteen. -/
def radixValue? (base : Nat) (digits : List Char) : Option Nat :=
  if digits.isEmpty then none
  else
    digits.foldlM (fun value c =>
      match hexValue? c <|> digitValue? c with
      | some digit => if digit < base then some (value * base + digit) else none
      | none => none) 0

/-- A text without a zero and a letter at its beginning that tell the base. -/
def withoutBaseMark (letter : Char) : List Char → List Char
  | '0' :: c :: rest => if c.toLower = letter then rest else '0' :: c :: rest
  | text => text

/-- The integer that a text denotes in a base which a letter stands for. -/
def radixInteger? (base : Nat) (letter : Char) (text : List Char) : Option Int :=
  match withoutMargin text with
  | '-' :: digits => (radixValue? base (withoutBaseMark letter digits)).map fun n => -(n : Int)
  | '+' :: digits => (radixValue? base (withoutBaseMark letter digits)).map fun n => (n : Int)
  | digits => (radixValue? base (withoutBaseMark letter digits)).map fun n => (n : Int)

/-- The integer in decimal or in base sixty that a text denotes. -/
def sexagesimalInteger? (text : List Char) : Option Int :=
  (splitOn ':' text).foldlM (fun value part => (readInteger? part).map (value * 60 + ·)) 0

/-- The integer without a sign that a text denotes. -/
def unsignedInteger? : List Char → Option Int
  | ['0'] => some 0
  | '0' :: 'b' :: digits => radixInteger? 2 'b' digits
  | '0' :: 'x' :: digits => radixInteger? 16 'x' digits
  | '0' :: digits => radixInteger? 8 'o' ('0' :: digits)
  | text => sexagesimalInteger? text

/-- The integer that a text denotes. Not every text in the form of one does. -/
def integer? (text : List Char) : Option Int :=
  match text.filter (· != '_') with
  | '-' :: rest => (unsignedInteger? rest).map (-·)
  | '+' :: rest => unsignedInteger? rest
  | rest => unsignedInteger? rest

/-- The sum of numbers, given in reverse, each times a power of sixty. -/
def sexagesimalSum (power : Int) (sum : Binary64) : List Binary64 → Binary64
  | [] => sum
  | part :: rest => sexagesimalSum (power * 60) (sum.add (part.mul (.ofInt power))) rest

/-- The number without a sign that a text denotes. -/
def unsignedReal? (text : List Char) : Option Binary64 :=
  if text = ['.', 'i', 'n', 'f'] then some (.infinite false)
  else if text = ['.', 'n', 'a', 'n'] then some .nan
  else if text.contains ':' then
    ((splitOn ':' text).mapM Binary64.read?).map fun parts =>
      sexagesimalSum 1 .zero parts.reverse
  else Binary64.read? text

/-- The number that a text denotes. -/
def real? (text : List Char) : Option Binary64 :=
  match lower (text.filter (· != '_')) with
  | '-' :: rest => (unsignedReal? rest).map (·.neg)
  | '+' :: rest => unsignedReal? rest
  | rest => unsignedReal? rest

end LineCensus.Yaml
