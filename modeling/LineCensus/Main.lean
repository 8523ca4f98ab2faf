/-
# The command

Runs a command on the files of the machine. Everything that the command may look at is
taken down first: the path with all that is below it, the links on the way to it, and
the files with settings. What follows is the same as on any other file tree.
-/

import LineCensus.Command.Session

namespace LineCensus.Main

/-- The text of a path below the root of the file system. -/
def textOf (names : List Name) : String :=
  (Path.mk .slash names).toString

/-- The entry of a directory of the machine that names lead to. -/
def entryOf (names : List Name) : IO.FS.DirEntry :=
  ⟨textOf names.dropLast, (names.getLast?.map (·.text)).getD "."⟩

/-- What an entry of a directory denotes, with everything below it if that is wanted. -/
partial def snapshot (isDeep : Bool) (entry : IO.FS.DirEntry) : IO FileTree := do
  match (← entry.path.symlinkMetadata).type with
  | .dir =>
    if !isDeep then return .empty
    try
      let mut found : List (Name × FileTree) := []
      for inner in ← entry.path.readDir do
        if let some name := Name.ofString? inner.fileName then
          try
            found := (name, ← snapshot isDeep inner) :: found
          catch _ => pure ()
      return .directory found
    catch _ => return .lockedDirectory
  | .file =>
    try
      return .file (← IO.FS.readBinFile entry.path)
    catch _ => return .lockedFile
  | .symlink => return .link (Path.ofString entry.path.toString)
  | .other => return .special

/-- The tree with what is at an absolute path of the machine: the links on the way to it, and what
they lead to. -/
def withPath (isDeep : Bool) (tree : FileTree) (path : Path) : IO FileTree := do
  let mut tree := tree
  let mut place : List Name := []
  for name in path.names do
    if name = .up then
      place := place.dropLast
    else
      place := place ++ [name]
      try
        let real := Path.ofString (← IO.FS.realPath (textOf place)).toString
        if real.names ≠ place then
          tree := tree.write (.link real) place
          place := real.names
      catch _ => pure ()
  try
    return tree.write (← snapshot isDeep (entryOf place)) place
  catch _ => return tree

/-- The paths of the files with settings and with ignore patterns that may belong to a path. -/
def filesAbout (path : Path) : List Path :=
  [path, path.parent].flatMap fun directory => [configFileName, ignoreListName].map directory.child

/-- What a command with the given arguments can see. -/
def environment (arguments : List String) : IO Environment := do
  let workingDirectory := Path.ofString (← IO.currentDir).toString
  let home := (← IO.getEnv "HOME").map Path.ofString
  let faultsEnabled := (← IO.getEnv "MDKLOC_ENABLE_FAULTS") == some "1"
  let outset : Environment :=
    ⟨FileTree.empty.write .empty workingDirectory.names, .wordless, workingDirectory, home,
      faultsEnabled⟩
  match Request.ofTexts arguments with
  | .ok (.scan request) =>
    if request.languages then return outset
    let path := outset.pathOf (request.path.getD ".")
    let settings := request.config.toList.map outset.pathOf
    let mut world ← withPath true outset.world path
    for file in settings ++ (path :: settings).flatMap filesAbout do
      if !world.denotes file then world ← withPath false world file
    return { outset with world }
  | _ => return outset

/-- The time on a clock that only goes forward, in seconds. -/
def now : IO Binary64 := do
  return .ofDecimal (← IO.monoNanosNow) (-9)

/-- Writes to the output and to the errors. -/
def write (written : Written) : IO Unit := do
  if !written.output.isEmpty then
    let output ← IO.getStdout
    output.putStr written.output
    output.flush
  if !written.errors.isEmpty then (← IO.getStderr).putStr written.errors

/-- Ends a command with its code, after what remains to be written. -/
def finish (transcript : Transcript) : IO UInt32 := do
  write transcript.written
  return transcript.code.toUInt32

/-- Runs a scan to its end. -/
def runSession (environment : Environment) (session : Session) : IO UInt32 := do
  let mut session := session
  for finding in session.scan.findings do
    let (next, written, error?) := session.step (← now) finding
    if let some error := error? then return ← finish (.failed written (.scan error))
    write written
    session := next
  finish ⟨session.closing (← now) environment, none⟩

end LineCensus.Main

open LineCensus LineCensus.Main in
/-- Runs the command with its arguments. -/
def main (arguments : List String) : IO UInt32 := do
  let environment ← environment arguments
  let isTerminal ← (← IO.getStdout).isTty
  match Opening.ofArguments environment (← now) isTerminal arguments with
  | .ended transcript => finish transcript
  | .scanning written session =>
    write written
    runSession environment session
