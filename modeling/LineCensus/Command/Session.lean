/-
# Running a command

What a command writes, from its arguments to its end. A scan is told about as it goes
on: every finding of its walk is a step, after which there may be something to write.
Nothing here writes or looks at the clock. Whoever runs a command does both, or asks
for the whole transcript of a run during which no time passes.
-/

import LineCensus.Census.Scan
import LineCensus.Command.Arguments
import LineCensus.Config
import LineCensus.Report.Analysis
import LineCensus.Report.Progress

namespace LineCensus

def commandName : String := "mdkloc"

def commandVersion : String := "0.1.0"

/-- What a command can see of the world. -/
structure Environment where
  world : FileTree
  yaml : Yaml.Reader
  /-- The working directory, free of links. -/
  workingDirectory : Path
  /-- The directory that a tilde stands for. -/
  home : Option Path
  /-- Whether failures are simulated. -/
  faultsEnabled : Bool

/-- The absolute path that an argument denotes. -/
def Environment.pathOf (environment : Environment) (argument : String) : Path :=
  let path := Path.ofString argument
  match environment.home, path.root, path.names with
  | some home, .relative, first :: rest =>
    if first.text = "~" then { home with names := home.names ++ rest }
    else environment.workingDirectory.join path
  | _, _, _ => environment.workingDirectory.join path

/-- What is written to the output and to the errors. -/
structure Written where
  output : String
  errors : String
deriving DecidableEq, Repr

namespace Written

def nothing : Written := ⟨"", ""⟩

def ofOutput (text : String) : Written := ⟨text, ""⟩

def ofErrors (text : String) : Written := ⟨"", text⟩

/-- One thing after another. -/
def append (first second : Written) : Written :=
  ⟨first.output ++ second.output, first.errors ++ second.errors⟩

instance : Append Written := ⟨append⟩

end Written

/-- Why a command does not do what it is asked for. -/
inductive CommandError where
  | usage (error : UsageError)
  | pathMissing (argument : String)
  /-- Whether there is anything at the path cannot be seen. -/
  | pathHidden (failure : SystemError)
  | config (failure : ConfigFailure)
  | scan (error : ScanError)
deriving DecidableEq

/-- How the command is used. -/
def usageLine : String :=
  "usage: " ++ commandName ++ " [switches] [path]\n"

/-- The line of the help on a switch. -/
def switchLine (switch : Switch) : String :=
  let value := match switch.valueName? with
    | some name => " " ++ name
    | none => ""
  "  " ++ Report.padRight 28 (switch.label ++ value) ++ switch.purpose ++ "\n"

def helpText : String :=
  usageLine ++ "\nCounts the lines of source code below a path.\n\nswitches:\n" ++
    String.join (Switch.all.map switchLine)

namespace CommandError

/-- What a command says about its failure. About one that it does not reckon with it says nothing,
and leaves that to whoever runs it. -/
def message : CommandError → String
  | usage error => usageLine ++ commandName ++ ": error: " ++ error.message ++ "\n"
  | pathMissing argument => "Path does not exist: " ++ argument ++ "\n"
  | config (.refused error) => commandName ++ ": " ++ error.message ++ "\n"
  | scan error => if error.isExpected then error.message ++ "\n" else ""
  | pathHidden _ | config _ => ""

def code : CommandError → Nat
  | usage _ => 2
  | pathMissing _ | pathHidden _ | config _ | scan _ => 1

end CommandError

/-- The options of the scan that is asked for. The settings are those of the file that is named, or
of the tree that is scanned; what is asked for comes on top of them. -/
def ScanRequest.options (request : ScanRequest) (environment : Environment) (path : Path) :
    Except ConfigFailure ScanOptions := do
  let settings := match request.config.filter (· ≠ "") with
    | some file => environment.pathOf file
    | none => if environment.world.isDirectory path then path else path.parent
  let options := (← Config.load environment.yaml environment.world settings).toOptions
  return { options with
    ignore := options.ignore ++ request.ignore
    filespec := request.filespec <|> options.filespec
    maxEntries := request.maxEntries.getD options.maxEntries
    maxDepth := request.maxDepth.getD options.maxDepth
    nonRecursive := options.nonRecursive || request.nonRecursive
    roleBreakdown := options.roleBreakdown || request.roleBreakdown
    verbose := request.verbose }

/-- A scan on its way, and what is known of its progress. -/
structure Session where
  scan : Scan
  options : ScanOptions
  state : ScanState
  progress : Progress

namespace Session

/-- What is written about the log records that a step adds. -/
def logged (session : Session) (records : List LogRecord) : Written :=
  .ofErrors (logText (LogLevel.threshold session.options.verbose) records)

/-- The session after one more finding, what is written about it, and why it ends there if it
does. What has been written is not kept. -/
def step (session : Session) (now : Binary64) (finding : Finding) :
    Session × Written × Option ScanError :=
  match session.state.forgetful.step session.scan.maxEntries session.scan.walk.root finding with
  | .error error => (session, .nothing, some error)
  | .ok state =>
    let (progress, line) := state.progress.foldr
      (fun lines (progress, written) =>
        let (progress, line) := progress.update now lines
        (progress, written ++ line))
      (session.progress, "")
    let details := state.recorded.reverse.map fun count =>
      Report.fileDetails count.path count.stats ++ "\n"
    let written :=
      Written.ofOutput (line ++ if session.options.verbose then String.join details else "") ++
        session.logged state.log.reverse
    ({ session with state, progress }, written, none)

/-- What is written at the end of a scan. -/
def closing (session : Session) (now : Binary64) (environment : Environment) : Written :=
  let report := session.state.report
  let count : LogRecord := ⟨.debug, "Scanned " ++ Text.integerText report.filesProcessed ++
    " files with " ++ Text.integerText report.errorCount ++ " errors"⟩
  session.logged [count] ++
    .ofOutput (session.progress.summary now ++
      Report.analysis report environment.workingDirectory session.options.roleBreakdown)

end Session

/-- All that a command writes, and why it fails if it does. -/
structure Transcript where
  written : Written
  error : Option CommandError
deriving DecidableEq

namespace Transcript

/-- The transcript of a command that fails, which says so at its end. -/
def failed (written : Written) (error : CommandError) : Transcript :=
  ⟨written ++ .ofErrors error.message, some error⟩

def code (transcript : Transcript) : Nat :=
  match transcript.error with
  | none => 0
  | some error => error.code

end Transcript

/-- How a command begins: it may be over at once, or a scan follows. -/
inductive Opening where
  | ended (transcript : Transcript)
  | scanning (written : Written) (session : Session)

namespace Opening

/-- A command that writes something and is over. -/
def told (text : String) : Opening := ended ⟨.ofOutput text, none⟩

/-- The beginning of a scan that is asked for. -/
def ofScan (environment : Environment) (now : Binary64) (isTerminal : Bool)
    (request : ScanRequest) : Opening :=
  let argument := request.path.getD "."
  let path := environment.pathOf argument
  let greeting := Written.ofOutput (commandName ++ " v" ++ commandVersion ++ "\n")
  match environment.world.look path with
  | .error failure => ended (.failed greeting (.pathHidden failure))
  | .ok none => ended (.failed greeting (.pathMissing argument))
  | .ok (some _) =>
    match request.options environment path with
    | .error failure => ended (.failed greeting (.config failure))
    | .ok options =>
      let announced := greeting ++ .ofOutput "Starting source code analysis...\n"
      match Scan.prepare environment.world environment.faultsEnabled options path with
      | .error error => ended (.failed announced (.scan error))
      | .ok scan => scanning announced ⟨scan, options, scan.start, .start isTerminal now⟩

/-- The beginning of a command with the given arguments. -/
def ofArguments (environment : Environment) (now : Binary64) (isTerminal : Bool)
    (arguments : List String) : Opening :=
  match Request.ofTexts arguments with
  | .error error => ended (.failed .nothing (.usage error))
  | .ok .help => told helpText
  | .ok .version => told (commandName ++ " " ++ commandVersion ++ "\n")
  | .ok (.scan request) =>
    if request.languages then told Language.listing
    else ofScan environment now isTerminal request

end Opening

namespace Transcript

/-- The rest of a session during which no time passes. -/
def ofFindings (environment : Environment) (now : Binary64) (written : Written)
    (session : Session) : List Finding → Transcript
  | [] => ⟨written ++ session.closing now environment, none⟩
  | finding :: rest =>
    match session.step now finding with
    | (session, text, none) => ofFindings environment now (written ++ text) session rest
    | (_, text, some error) => failed (written ++ text) (.scan error)

/-- The transcript of a command during which no time passes and which writes to no terminal. -/
def ofArguments (environment : Environment) (now : Binary64) (arguments : List String) :
    Transcript :=
  match Opening.ofArguments environment now false arguments with
  | .ended transcript => transcript
  | .scanning written session =>
    ofFindings environment now written session session.scan.findings

end Transcript

end LineCensus
