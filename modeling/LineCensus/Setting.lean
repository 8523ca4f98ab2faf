/-
# Settings

What may stand in the place of a setting, and how it is understood. A person may write
one in several ways, and a setting that makes no sense counts as not given. The only
thing that cannot be passed over is an integer that is meant to be a text and is too
long to be written.
-/

import LineCensus.Decimal.Shortest
import LineCensus.Text.LowerCase
import LineCensus.Yaml.Value

namespace LineCensus

open Text

/-- What stands in the place of a setting. -/
inductive Setting where
  | bool (value : Bool)
  | integer (value : Int)
  | real (value : Binary64)
  | text (value : String)
  | bytes (values : List UInt8)
  | list (items : List Setting)
  /-- Something that no setting is made from. -/
  | other
deriving Repr

/-- An integer in the place of a text has too many digits to be written. -/
inductive LongInteger where
  | longInteger
deriving DecidableEq, Repr

namespace Setting

/-- The text of an integer, unless it is too long. -/
def integerText? (value : Int) : Except LongInteger String :=
  if (naturalDigits value.natAbs).length ≤ maxIntegerDigits then .ok (integerText value)
  else .error .longInteger

/-- The text that a setting is understood as: a text, or a number as it is written. -/
def text? : Setting → Except LongInteger (Option String)
  | .text value => .ok (some value)
  | .integer value => (integerText? value).map some
  | .real value => .ok (some value.shortest)
  | _ => .ok none

/-- The integer that a setting is understood as. In a text underscores mean nothing. -/
def integer? : Setting → Option Int
  | .integer value => some value
  | .text value => readInteger? (value.toList.filter (· != '_'))
  | _ => none

/-- The texts that are understood as true or false, in lower case. -/
def boolTexts : List (String × Bool) :=
  [("true", true), ("yes", true), ("1", true), ("false", false), ("no", false), ("0", false)]

/-- The truth value that a setting is understood as. -/
def bool? : Setting → Option Bool
  | .bool value => some value
  | .text value => boolTexts.lookup (String.ofList (lower (trim value.toList)))
  | _ => none

/-- The text of an item of a list, if it has one. -/
def itemText? : Setting → Except LongInteger (Option String)
  | .bool value => .ok (some (if value then "True" else "False"))
  | item => text? item

/-- The texts that a setting is understood as: those of its items, or the only one. Items without
a text are left out. -/
def texts : Setting → Except LongInteger (List String)
  | .text value => .ok [value]
  | .list items => do return (← items.mapM itemText?).filterMap id
  | .bytes values => .ok (values.map fun byte => integerText byte.toNat)
  | _ => .ok []

/-- What a value is as an item of a list. Collections are of no use there. -/
def ofItem : Yaml.Value → Setting
  | .bool value => .bool value
  | .integer value => .integer value
  | .real value => .real value
  | .text value => .text value
  | .bytes values => .bytes values
  | .null | .moment _ | .list _ | .mapping _ | .set _ | .pair _ _ => .other

/-- What a value is in the place of a setting. A pair is as good as a list. -/
def ofValue (document : Yaml.Document) : Yaml.Value → Setting
  | .list place => .list ((document.items place).map ofItem)
  | .pair key value => .list [ofItem key, ofItem value]
  | value => ofItem value

end Setting

end LineCensus
