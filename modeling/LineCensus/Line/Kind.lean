/-
# Line kinds

What one physical line of a source file is. The three properties are kept as
independent marks: a line of code with a trailing comment carries two of them, and
a line in a file that turns out not to be in its presumed language carries none.
-/

namespace LineCensus

/-- The marks of one line. -/
structure LineKind where
  blank : Bool
  code : Bool
  comment : Bool
deriving DecidableEq, Repr

namespace LineKind

/-- A line that counts as nothing. -/
def unclassified : LineKind := ⟨false, false, false⟩

/-- A line of white space. -/
def blankLine : LineKind := ⟨true, false, false⟩

/-- A line of code and nothing else. -/
def codeLine : LineKind := ⟨false, true, false⟩

/-- A line of comment and nothing else. -/
def commentLine : LineKind := ⟨false, false, true⟩

/-- A line that holds both code and comment. -/
def mixedLine : LineKind := ⟨false, true, true⟩

/-- A kind with the code mark added where `present` says that there is code. -/
def withCode (kind : LineKind) (present : Bool) : LineKind :=
  { kind with code := kind.code || present }

/-- A kind with the comment mark added. -/
def withComment (kind : LineKind) : LineKind :=
  { kind with comment := true }

/-- A comment line, mixed where `code` says that there is code beside the comment. -/
def commentAnd (code : Bool) : LineKind :=
  commentLine.withCode code

end LineKind

end LineCensus
