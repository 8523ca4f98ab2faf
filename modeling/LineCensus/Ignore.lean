/-
# Ignore rules

Patterns that leave files and directories out of a scan, in the manner of version
control. Rules are tried in order and the last one that matches decides; a negated
rule takes its matches back in.

A pattern with a slash inside or in front is matched against the whole path below the
root of the scan, and one without against each component. A slash at the end restricts
a rule to directories.
-/

import LineCensus.Glob
import LineCensus.Path
import LineCensus.Text.Lines

namespace LineCensus

open Text

/-- A rule for what a scan leaves out. -/
structure IgnoreRule where
  pattern : List Char
  /-- Whether the rule is about directories alone. -/
  directoryOnly : Bool
  /-- Whether the pattern began with a slash. -/
  anchored : Bool
  /-- Whether the rule takes back in what it matches. -/
  negated : Bool
  /-- Whether there is a slash in the pattern. -/
  hasSlash : Bool
deriving DecidableEq, Repr

namespace IgnoreRule

/-- Whether a rule matches a path below the root of the scan. -/
def isMatch (rule : IgnoreRule) (way : List Char) (isDirectory : Bool) : Bool :=
  if rule.pattern.isEmpty || (rule.directoryOnly && !isDirectory) then false
  else if rule.anchored || rule.hasSlash then
    globMatches rule.pattern way || (!rule.anchored && endsWith ('/' :: rule.pattern) way)
  else (splitOn '/' way).any (globMatches rule.pattern)

/-- The rule that a pattern spells, none for a blank one. A backslash is as good as a slash. -/
def ofPattern? (negated : Bool) (text : List Char) : Option IgnoreRule :=
  let pattern := (trim text).map fun c => if c = '\\' then '/' else c
  if pattern.isEmpty then none
  else
    let directoryOnly := pattern.getLast? == some '/'
    let pattern := (pattern.reverse.dropWhile (· == '/')).reverse
    let anchored := pattern.head? == some '/'
    let pattern := if anchored then pattern.drop 1 else pattern
    some ⟨pattern, directoryOnly, anchored, negated, pattern.contains '/'⟩

/-- The rule on a line of a list of rules, none for a blank line and a comment. -/
def ofLine? (line : Line) : Option IgnoreRule :=
  match trim line with
  | [] => none
  | '#' :: _ => none
  | '!' :: pattern => ofPattern? true pattern
  | pattern => ofPattern? false pattern

def ofList (text : List Char) : List IgnoreRule :=
  (unicodeLines text).filterMap ofLine?

/-- The rules for a scan: first those listed in the tree, then those that the user gave. -/
def all (listed : List IgnoreRule) (patterns : List String) : List IgnoreRule :=
  listed ++ patterns.filterMap fun pattern => ofPattern? false pattern.toList

/-- Whether the rules leave a path out. -/
def ignores (rules : List IgnoreRule) (way : List Char) (isDirectory : Bool) : Bool :=
  match rules.reverse.find? (·.isMatch way isDirectory) with
  | some rule => !rule.negated
  | none => false

end IgnoreRule

end LineCensus
