/-
# The configuration file

A tree may have a file with settings for its scans. Every setting is optional, and one
that makes no sense counts as not given. The file as a whole has to be readable, to be
written in UTF-8, and to hold a mapping in YAML or nothing.
-/

import LineCensus.FileTree
import LineCensus.Options
import LineCensus.Setting
import LineCensus.Text.Lines
import LineCensus.Yaml.Reader

namespace LineCensus

open Text Yaml

/-- Why a configuration is refused. -/
inductive ConfigError where
  /-- The file cannot be read. -/
  | unreadable (path : Path) (failure : SystemError)
  /-- The file of the given name is refused by the reader of YAML, for the given reason. -/
  | malformed (file reason : String)
  /-- What is in the file has no settings. -/
  | notMapping
deriving DecidableEq

/-- Why there is no configuration: it is refused, or something stops the reading that nobody has
reckoned with. -/
inductive ConfigFailure where
  | refused (error : ConfigError)
  /-- Whether there is a file cannot be seen from outside a locked directory. -/
  | hidden (failure : SystemError)
  /-- Links lead round in a circle. The path is how far one gets. -/
  | circular (path : Path)
  /-- The file is not written in UTF-8. -/
  | notUtf8
  /-- The reader of YAML fails without refusing the text. -/
  | brokenReader
  /-- An integer in the place of a text has too many digits to be written. -/
  | longInteger
deriving DecidableEq

/-- The name of the file with the settings of a tree. -/
def configFileName : Name := ⟨".mdkloc.yml", by decide⟩

def ConfigError.message : ConfigError → String
  | unreadable path failure => "Failed to read " ++ path.toString ++ ": " ++ failure.message
  | malformed file reason => "Failed to parse " ++ file ++ ": " ++ reason
  | notMapping => configFileName.text ++ " must contain a mapping at the root"

/-- The settings of a tree, as far as they are given. -/
structure Config where
  /-- The directory of the file with the settings. -/
  root : Path
  ignore : List String := []
  filespec : Option String := none
  maxEntries : Option Int := none
  maxDepth : Option Int := none
  nonRecursive : Option Bool := none
  roleBreakdown : Option Bool := none
  useGitignore : Option Bool := none
deriving DecidableEq

namespace Config

/-- The options of a scan with these settings. What is not set has its default. -/
def toOptions (config : Config) : ScanOptions :=
  let defaults : ScanOptions := {}
  { ignore := config.ignore
    filespec := config.filespec
    maxEntries := config.maxEntries.getD defaults.maxEntries
    maxDepth := config.maxDepth.getD defaults.maxDepth
    nonRecursive := config.nonRecursive.getD defaults.nonRecursive
    roleBreakdown := config.roleBreakdown.getD defaults.roleBreakdown
    useGitignore := config.useGitignore.getD defaults.useGitignore }

/-- The settings that are found by their names. -/
def ofSettings (root : Path) (setting : String → Setting) : Except LongInteger Config := do
  return {
    root
    ignore := ← (setting "ignore").texts
    filespec := ← (setting "filespec").text?
    maxEntries := (setting "max_entries").integer?
    maxDepth := (setting "max_depth").integer?
    nonRecursive := (setting "non_recursive").bool?
    roleBreakdown := (setting "role_breakdown").bool?
    useGitignore := (setting "use_gitignore").bool? }

/-- The settings in a document. One that counts as nothing has none. -/
def ofDocument (root : Path) (document : Document) : Except ConfigFailure Config :=
  if document.isFalsy document.root then .ok { root }
  else match document.root with
    | .mapping place =>
      (ofSettings root fun name =>
        match document.lookUp? place name with
        | some value => .ofValue document value
        | none => .other).mapError fun .longInteger => .longInteger
    | _ => .error (.refused .notMapping)

/-- The settings in the text of a file. -/
def ofText (yaml : Reader) (root : Path) (file : String) (text : List Char) :
    Except ConfigFailure Config :=
  if isBlankText text then .ok { root }
  else match yaml text with
    | .ok document => ofDocument root document
    | .error (.refused reason) => .error (.refused (.malformed file reason))
    | .error .broken => .error .brokenReader

/-- The settings in the bytes of a file. -/
def ofBytes (yaml : Reader) (root : Path) (file : String) (bytes : List UInt8) :
    Except ConfigFailure Config :=
  match Utf8.decode? bytes with
  | some text => ofText yaml root file (unifyLineEnds text)
  | none => .error .notUtf8

/-- Where the settings are that a path stands for, given what is there: in a directory, in a YAML file
itself, or beside any other file. -/
def place (path : Path) (found : Option FileTree) : Path :=
  match found with
  | some (.directory _) | some .lockedDirectory => path.child configFileName
  | _ =>
    if path.suffix = ".yml" ∨ path.suffix = ".yaml" then path
    else path.parent.child configFileName

/-- A path without the links on the way. -/
def resolve (world : FileTree) (path : Path) : Except ConfigFailure Path :=
  (world.resolve path).mapError .circular

/-- What an absolute path denotes, if anything. -/
def look (world : FileTree) (path : Path) : Except ConfigFailure (Option FileTree) :=
  (world.look path).mapError .hidden

/-- The settings in a file. Where there is no file there are none. -/
def ofFile (yaml : Reader) (world : FileTree) (root file : Path) : Except ConfigFailure Config := do
  match ← look world file with
  | none => return { root }
  | some found =>
    match found.contents file with
    | .ok bytes => ofBytes yaml root file.name bytes.data.toList
    | .error failure => throw (.refused (.unreadable file failure))

/-- The settings that an absolute path leads to. -/
def load (yaml : Reader) (world : FileTree) (path : Path) : Except ConfigFailure Config := do
  let file ← resolve world (place path (← look world path))
  let root ← resolve world file.parent
  ofFile yaml world root file

end Config

end LineCensus
