/-
# The switches of the command line

What can be asked for beside the path to scan. Every switch has a word and most have a
letter. Some take a value.
-/

namespace LineCensus

inductive Switch where
  | help
  | ignore
  | verbose
  | maxEntries
  | maxDepth
  | nonRecursive
  | filespec
  | roleBreakdown
  | languages
  | config
  | version
deriving DecidableEq, Repr

namespace Switch

/-- All switches, in the order in which they are told to a user. -/
def all : List Switch :=
  [help, ignore, verbose, maxEntries, maxDepth, nonRecursive, filespec, roleBreakdown, languages,
    config, version]

def letter? : Switch → Option Char
  | help => some 'h'
  | ignore => some 'i'
  | verbose => some 'v'
  | maxEntries => some 'm'
  | maxDepth => some 'd'
  | nonRecursive => some 'n'
  | filespec => some 'f'
  | roleBreakdown => some 'r'
  | languages => some 'l'
  | config | version => none

/-- The word of a switch, with its hyphens. -/
def word : Switch → String
  | help => "--help"
  | ignore => "--ignore"
  | verbose => "--verbose"
  | maxEntries => "--max-entries"
  | maxDepth => "--max-depth"
  | nonRecursive => "--non-recursive"
  | filespec => "--filespec"
  | roleBreakdown => "--role-breakdown"
  | languages => "--languages"
  | config => "--config"
  | version => "--version"

/-- What the value of a switch is called, if the switch takes one. -/
def valueName? : Switch → Option String
  | ignore | filespec => some "PATTERN"
  | maxEntries | maxDepth => some "NUMBER"
  | config => some "FILE"
  | _ => none

def takesValue (switch : Switch) : Bool :=
  switch.valueName?.isSome

/-- What a switch does. -/
def purpose : Switch → String
  | help => "Show the switches and exit."
  | ignore => "Leave out what matches this pattern; may be given several times."
  | verbose => "Tell the counts of every file, and more about the scan."
  | maxEntries => "Give up after this many files."
  | maxDepth => "Descend this far below the path at most."
  | nonRecursive => "Count only the files in the directory itself."
  | filespec => "Count only files that match this pattern."
  | roleBreakdown => "Tell mainline code and tests apart."
  | languages => "List the known languages and exit."
  | config => "Take the settings from this file."
  | version => "Show the version and exit."

/-- Both spellings of a switch. -/
def label (switch : Switch) : String :=
  match switch.letter? with
  | some letter => String.ofList ['-', letter, '/'] ++ switch.word
  | none => switch.word

def ofLetter? (letter : Char) : Option Switch :=
  all.find? (·.letter? = some letter)

def ofWord? (word : String) : Option Switch :=
  all.find? (·.word = word)

/-- The switches whose word begins with a text. -/
def startingWith (text : List Char) : List Switch :=
  all.filter fun switch => text.isPrefixOf switch.word.toList

/-- A switch is found by its word. -/
@[simp] theorem ofWord?_word (switch : Switch) : ofWord? switch.word = some switch := by
  cases switch <;> decide

/-- A switch is found by its letter. -/
theorem ofLetter?_of_letter? {switch : Switch} {letter : Char} (h : switch.letter? = some letter) :
    ofLetter? letter = some switch := by
  cases switch <;> simp only [letter?, Option.some.injEq, reduceCtorEq] at h <;> subst h <;> decide

end Switch

end LineCensus
