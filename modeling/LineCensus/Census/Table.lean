/-
# Tables in the order of their keys

A table holds one value for each of its keys, the keys ascending. Because the order of
the entries is that of the keys and not that of insertion, two tables that were filled
with the same things in different orders are the same table.

Keys that the order does not tell apart are taken for one key.
-/

namespace LineCensus

/-- Values by key, the keys ascending. -/
structure Table (κ α : Type) where
  entries : List (κ × α)
deriving DecidableEq, Repr

namespace Table

variable {κ α β : Type} [LT κ] [DecidableLT κ]

def empty : Table κ α := ⟨[]⟩

/-- Entries in which the value of a key is changed, or made from nothing if there is none. -/
def changeIn (key : κ) (change : Option α → α) : List (κ × α) → List (κ × α)
  | [] => [(key, change none)]
  | (k, value) :: rest =>
    if key < k then (key, change none) :: (k, value) :: rest
    else if k < key then (k, value) :: changeIn key change rest
    else (k, change (some value)) :: rest

/-- A table in which the value of a key is changed, or made from nothing if there is none. -/
def change (table : Table κ α) (key : κ) (rule : Option α → α) : Table κ α :=
  ⟨changeIn key rule table.entries⟩

/-- The value of a key. -/
def get? (table : Table κ α) (key : κ) : Option α :=
  (table.entries.find? fun entry => !decide (entry.1 < key) && !decide (key < entry.1)).map (·.2)

def isEmpty (table : Table κ α) : Bool :=
  table.entries.isEmpty

/-- The values in the order of their keys. -/
def values (table : Table κ α) : List α :=
  table.entries.map (·.2)

/-- A table with the entries of another one added to it, by a rule for keys that both have. -/
def mergeWith (combine : α → α → α) (first second : Table κ α) : Table κ α :=
  second.entries.foldl
    (fun table entry => table.change entry.1 fun
      | some value => combine value entry.2
      | none => entry.2)
    first

end Table

end LineCensus
