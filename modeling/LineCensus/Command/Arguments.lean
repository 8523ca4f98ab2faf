/-
# The arguments of the command line

Switches and a path, in any order. Letters can be put together behind one hyphen, a word
may be cut short as long as it fits no other one, and a value may follow directly, after
an equals sign or as the next argument. The equals sign is no part of the value after a
word and after the first letter, but it is one after a later letter. After two hyphens on
their own nothing is a switch any more.

Switches take effect in their order. So one that ends everything, such as the one for
the version, leaves later mistakes without consequence, except for a word that fits
several switches: that is found before anything else.
-/

import LineCensus.Command.Switch
import LineCensus.Text.Integer
import LineCensus.Text.Lines
import LineCensus.Text.Quoted
import LineCensus.Text.Search

namespace LineCensus

open Text

/-- Why the arguments make no sense. -/
inductive UsageError where
  /-- A word that is cut short fits several switches. -/
  | ambiguous (argument : String) (candidates : List Switch)
  /-- A switch lacks its value. -/
  | valueMissing (switch : Switch)
  /-- A switch has a value although it takes none. -/
  | valueIgnored (switch : Switch) (value : String)
  | notAnInteger (switch : Switch) (value : String)
  /-- There is more than a path and known switches. -/
  | unrecognized (arguments : List String)
deriving DecidableEq, Repr

namespace UsageError

/-- What is wrong about a switch. -/
def aboutSwitch (switch : Switch) (problem : String) : String :=
  "argument " ++ switch.label ++ ": " ++ problem

def message : UsageError → String
  | ambiguous argument candidates =>
    "ambiguous option: " ++ argument ++ " could match " ++
      String.intercalate ", " (candidates.map (·.word))
  | valueMissing switch => aboutSwitch switch "expected one argument"
  | valueIgnored switch value => aboutSwitch switch ("ignored explicit argument " ++ quoted value)
  | notAnInteger switch value => aboutSwitch switch ("invalid int value: " ++ quoted value)
  | unrecognized arguments => "unrecognized arguments: " ++ String.intercalate " " arguments

end UsageError

/-- An argument on its own. -/
inductive Argument where
  /-- A path or the value of a switch. -/
  | operand (text : String)
  /-- The two hyphens after which there are operands only. -/
  | boundary
  /-- A switch by its word or by its letter, and what follows it in the same argument. Of an equals
  sign in between nothing is left. -/
  | switch (switch : Switch) (isWord : Bool) (attached : Option (List Char))
  /-- Something in the form of a switch. -/
  | unknown (text : String)
deriving DecidableEq, Repr

namespace Argument

/-- Whether a text is a negative number, which is not taken for a switch. A line feed may follow. -/
def isNegativeNumber (text : List Char) : Bool :=
  match withoutFinalFeed text with
  | '-' :: text =>
    let isDigit (c : Char) : Bool := (digitValue? c).isSome
    match text.dropWhile isDigit with
    | [] => !text.isEmpty
    | '.' :: decimals => !decimals.isEmpty && decimals.all isDigit
    | _ => false
  | _ => false

/-- An argument that spells no switch. A negative number is an operand, and so is what has a space
in it. -/
def ofUnknown (text : String) : Argument :=
  if isNegativeNumber text.toList || text.toList.contains ' ' then operand text else unknown text

/-- An argument that begins with two hyphens. -/
def ofWord (text : String) : Except UsageError Argument :=
  let name := text.toList.takeWhile (· != '=')
  let attached := after? ['='] text.toList
  match Switch.ofWord? (String.ofList name), Switch.startingWith name with
  | some found, _ | none, [found] => .ok (switch found true attached)
  | none, [] => .ok (ofUnknown text)
  | none, candidates => .error (.ambiguous text candidates)

def ofText (text : String) : Except UsageError Argument :=
  match text.toList with
  | '-' :: '-' :: _ => ofWord text
  | '-' :: letter :: tail =>
    match Switch.ofLetter? letter with
    | some found =>
      .ok (switch found false (match tail with
        | [] => none
        | '=' :: value => some value
        | tail => some tail))
    | none => .ok (ofUnknown text)
  | _ => .ok (operand text)

def ofTexts : List String → Except UsageError (List Argument)
  | [] => .ok []
  | text :: rest =>
    if text = "--" then .ok (boundary :: rest.map operand)
    else do return (← ofText text) :: (← ofTexts rest)

end Argument

structure SwitchUse where
  switch : Switch
  /-- Its value, empty if it takes none. -/
  value : String
deriving DecidableEq, Repr

structure SwitchCluster where
  uses : List SwitchUse
  /-- A last switch that takes the next argument as its value. -/
  awaiting : Option Switch
deriving DecidableEq, Repr

namespace SwitchCluster

/-- The switches in an argument, of which the first one and the letters after it are given. -/
def ofLetters (switch : Switch) : List Char → Except UsageError SwitchCluster
  | [] => .ok (if switch.takesValue then ⟨[], some switch⟩ else ⟨[⟨switch, ""⟩], none⟩)
  | c :: rest =>
    if switch.takesValue then .ok ⟨[⟨switch, String.ofList (c :: rest)⟩], none⟩
    else match Switch.ofLetter? c with
      | none => .error (.valueIgnored switch (String.ofList (c :: rest)))
      | some next => do
        let others ← ofLetters next rest
        return { others with uses := ⟨switch, ""⟩ :: others.uses }

/-- The switches in an argument, of which the first one and what is attached to it are given. To a
letter others may be attached. -/
def ofSwitch (switch : Switch) (isWord : Bool) :
    Option (List Char) → Except UsageError SwitchCluster
  | none => ofLetters switch []
  | some attached =>
    if switch.takesValue then .ok ⟨[⟨switch, String.ofList attached⟩], none⟩
    else if isWord || attached.isEmpty then
      .error (.valueIgnored switch (String.ofList attached))
    else ofLetters switch attached

end SwitchCluster

/-- What a user asks for about a scan. -/
structure ScanRequest where
  path : Option String := none
  ignore : List String := []
  verbose : Bool := false
  maxEntries : Option Int := none
  maxDepth : Option Int := none
  nonRecursive : Bool := false
  filespec : Option String := none
  roleBreakdown : Bool := false
  /-- Whether nothing but the list of languages is wanted. -/
  languages : Bool := false
  config : Option String := none
deriving DecidableEq, Repr

/-- What a user asks for. -/
inductive Request where
  | help
  | version
  | scan (request : ScanRequest)
deriving DecidableEq, Repr

namespace ScanRequest

/-- The value of a switch as an integer. -/
def integer (use : SwitchUse) : Except UsageError Int :=
  match readInteger? use.value.toList with
  | some value => .ok value
  | none => .error (.notAnInteger use.switch use.value)

/-- The request with one more switch. -/
def apply (request : ScanRequest) (use : SwitchUse) : Except UsageError Request := do
  match use.switch with
  | .help => return .help
  | .version => return .version
  | .ignore => return .scan { request with ignore := request.ignore ++ [use.value] }
  | .verbose => return .scan { request with verbose := true }
  | .maxEntries => return .scan { request with maxEntries := some (← integer use) }
  | .maxDepth => return .scan { request with maxDepth := some (← integer use) }
  | .nonRecursive => return .scan { request with nonRecursive := true }
  | .filespec => return .scan { request with filespec := some use.value }
  | .roleBreakdown => return .scan { request with roleBreakdown := true }
  | .languages => return .scan { request with languages := true }
  | .config => return .scan { request with config := some use.value }

/-- The request with more switches. One that ends everything ends it here. -/
def applyAll (request : ScanRequest) : List SwitchUse → Except UsageError Request
  | [] => .ok (.scan request)
  | use :: rest => do
    match ← request.apply use with
    | .scan request => request.applyAll rest
    | ended => return ended

end ScanRequest

/-- The request with the remaining arguments, of which `unrecognized` ones came before. -/
def Request.ofArgumentsAfter (request : ScanRequest) (unrecognized : List String) :
    List Argument → Except UsageError Request
  | [] => if unrecognized.isEmpty then .ok (.scan request) else .error (.unrecognized unrecognized)
  | .operand path :: .boundary :: rest =>
    if request.path.isNone then
      ofArgumentsAfter { request with path := some path } unrecognized rest
    else ofArgumentsAfter request (unrecognized ++ [path, "--"]) rest
  | .operand path :: rest =>
    if request.path.isNone then
      ofArgumentsAfter { request with path := some path } unrecognized rest
    else ofArgumentsAfter request (unrecognized ++ [path]) rest
  | .boundary :: rest =>
    ofArgumentsAfter request (if request.path.isNone then unrecognized else unrecognized ++ ["--"])
      rest
  | .unknown text :: rest => ofArgumentsAfter request (unrecognized ++ [text]) rest
  | .switch switch isWord attached :: rest => do
    let cluster ← SwitchCluster.ofSwitch switch isWord attached
    match cluster.awaiting, rest with
    | none, rest =>
      match ← request.applyAll cluster.uses with
      | .scan request => ofArgumentsAfter request unrecognized rest
      | ended => return ended
    | some last, .operand value :: rest =>
      match ← request.applyAll (cluster.uses ++ [⟨last, value⟩]) with
      | .scan request => ofArgumentsAfter request unrecognized rest
      | ended => return ended
    | some last, _ => throw (.valueMissing last)

/-- What a user asks for with the given arguments. -/
def Request.ofTexts (texts : List String) : Except UsageError Request := do
  ofArgumentsAfter {} [] (← Argument.ofTexts texts)

end LineCensus
