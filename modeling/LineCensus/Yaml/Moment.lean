/-
# Dates and times in YAML

A scalar in the form of a date, with or without a time of day and the distance of its
zone from universal time. The form says nothing about the calendar, so a scalar may
well have it and still denote no moment that there is.
-/

import LineCensus.Text.Integer

namespace LineCensus.Yaml

structure DayTime where
  hour : Nat
  minute : Nat
  second : Nat
  /-- The distance of the zone from universal time in minutes, in either direction. -/
  zone : Nat
deriving DecidableEq, Repr

/-- A date, and a time if one is given. -/
structure Moment where
  year : Nat
  month : Nat
  day : Nat
  time : Option DayTime
deriving DecidableEq, Repr

namespace Moment

/-- The value of the digits that a text begins with, of which there are at least `least` and at most
`most` are read, and what follows. -/
def digits? (least most : Nat) (text : List Char) : Option (Nat × List Char) :=
  let digits := (text.takeWhile Char.isDigit).take most
  if digits.length < least then none
  else
    some (digits.foldl (fun value c => value * 10 + (c.toNat - '0'.toNat)) 0,
      text.drop digits.length)

/-- What follows a character that a text begins with. -/
def past? (c : Char) (text : List Char) : Option (List Char) :=
  if text.head? = some c then some (text.drop 1) else none

/-- What follows the spaces and tabs that a text begins with. -/
def pastSpaces (text : List Char) : List Char :=
  text.dropWhile fun c => c == ' ' || c == '\t'

/-- The distance of a zone that a text denotes. -/
def zone? (text : List Char) : Option Nat :=
  match pastSpaces text with
  | ['Z'] => some 0
  | sign :: rest => do
    if sign ≠ '+' ∧ sign ≠ '-' then failure
    let (hours, rest) ← digits? 1 2 rest
    if rest.isEmpty then return hours * 60
    let (minutes, rest) ← digits? 2 2 (← past? ':' rest)
    if rest.isEmpty then return hours * 60 + minutes else failure
  | [] => none

/-- The time of day that a text denotes. -/
def dayTime? (text : List Char) : Option DayTime := do
  let (hour, rest) ← digits? 1 2 text
  let (minute, rest) ← digits? 2 2 (← past? ':' rest)
  let (second, rest) ← digits? 2 2 (← past? ':' rest)
  let rest := match rest with
    | '.' :: rest => rest.dropWhile Char.isDigit
    | rest => rest
  let zone ← if rest.isEmpty then some 0 else zone? rest
  return ⟨hour, minute, second, zone⟩

/-- The moment that a text has the form of. -/
def ofText? (text : List Char) : Option Moment := do
  let (year, rest) ← digits? 4 4 text
  let (month, rest) ← digits? 1 2 (← past? '-' rest)
  let (day, rest) ← digits? 1 2 (← past? '-' rest)
  match rest with
  | [] => return ⟨year, month, day, none⟩
  | c :: rest =>
    if c = 'T' ∨ c = 't' then return ⟨year, month, day, ← dayTime? rest⟩
    else if c = ' ' ∨ c = '\t' then return ⟨year, month, day, ← dayTime? (pastSpaces rest)⟩
    else failure

/-- The length of a date whose month and day have two digits each. -/
def fullDateLength : Nat := 10

/-- Whether a text without a tag is understood as a moment. A date on its own then has to have all
its digits. -/
def isMoment (text : List Char) : Bool :=
  match ofText? text with
  | some moment => moment.time.isSome || text.length == fullDateLength
  | none => false

def daysIn (year month : Nat) : Nat :=
  if month = 2 then
    if year % 4 = 0 ∧ (year % 100 ≠ 0 ∨ year % 400 = 0) then 29 else 28
  else if [4, 6, 9, 11].contains month then 30
  else 31

/-- Whether there is such a moment. -/
def isReal (moment : Moment) : Bool :=
  1 ≤ moment.year && 1 ≤ moment.month && moment.month ≤ 12 && 1 ≤ moment.day &&
    moment.day ≤ daysIn moment.year moment.month &&
    moment.time.all fun time =>
      time.hour ≤ 23 && time.minute ≤ 59 && time.second ≤ 59 && time.zone < 24 * 60

end Moment

end LineCensus.Yaml
