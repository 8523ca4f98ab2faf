/-
# Roles

Every counted line is part of the product or of its tests. A path can settle that for
a whole file before it is read; then the hint says which.
-/

namespace LineCensus

/-- What a line of code is for. -/
inductive CodeRole where
  | mainline
  | test
deriving DecidableEq, Repr

namespace CodeRole

/-- Both roles, in the order of reports. -/
def all : List CodeRole := [mainline, test]

/-- The role as it is written in reports. -/
def label : CodeRole → String
  | mainline => "Mainline"
  | test => "Test"

/-- The place of a role in the order of reports. -/
def index : CodeRole → Nat
  | mainline => 0
  | test => 1

def ofLabel? (label : String) : Option CodeRole :=
  all.find? (·.label == label)

end CodeRole

/-- What a path tells about the role of the lines in a file. -/
inductive RoleHint where
  | unknown
  | testFile
  | mainlineFile
deriving DecidableEq, Repr

namespace RoleHint

/-- All hints, the indifferent one first. -/
def all : List RoleHint := [unknown, testFile, mainlineFile]

/-- The hint as text. -/
def label : RoleHint → String
  | unknown => "unknown"
  | testFile => "test"
  | mainlineFile => "mainline"

def ofLabel? (label : String) : Option RoleHint :=
  all.find? (·.label == label)

/-- The role of every line of a file about which no more than the hint is known. -/
def uniformRole : RoleHint → CodeRole
  | testFile => .test
  | unknown | mainlineFile => .mainline

end RoleHint

/-- One value for each role. -/
structure PerRole (α : Type) where
  mainline : α
  test : α
deriving DecidableEq, Repr

namespace PerRole

/-- The same value for either role. -/
def const {α : Type} (value : α) : PerRole α := ⟨value, value⟩

def get {α : Type} (values : PerRole α) : CodeRole → α
  | .mainline => values.mainline
  | .test => values.test

/-- A value for each role, by a rule. -/
def ofFn {α : Type} (rule : CodeRole → α) : PerRole α := ⟨rule .mainline, rule .test⟩

/-- The values, changed alike for either role. -/
def map {α β : Type} (change : α → β) (values : PerRole α) : PerRole β :=
  ⟨change values.mainline, change values.test⟩

/-- Two sets of values, combined role by role. -/
def zipWith {α β γ : Type} (combine : α → β → γ) (first : PerRole α) (second : PerRole β) :
    PerRole γ :=
  ⟨combine first.mainline second.mainline, combine first.test second.test⟩

@[simp] theorem get_ofFn {α : Type} (rule : CodeRole → α) (role : CodeRole) :
    (ofFn rule).get role = rule role := by
  cases role <;> rfl

@[simp] theorem get_map {α β : Type} (change : α → β) (values : PerRole α) (role : CodeRole) :
    (values.map change).get role = change (values.get role) := by
  cases role <;> rfl

@[simp] theorem get_zipWith {α β γ : Type} (combine : α → β → γ) (first : PerRole α)
    (second : PerRole β) (role : CodeRole) :
    (first.zipWith combine second).get role = combine (first.get role) (second.get role) := by
  cases role <;> rfl

/-- Values for the roles are equal if they are for each. -/
theorem ext_get {α : Type} {first second : PerRole α}
    (h : ∀ role, first.get role = second.get role) : first = second := by
  cases first
  cases second
  have hm := h .mainline
  have ht := h .test
  simp only [get] at hm ht
  rw [hm, ht]

end PerRole

end LineCensus
