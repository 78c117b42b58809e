import TrialView.Command.Project

/-!
The command line. Arguments, the setting of the environment and the files at the paths that the
arguments name go into the command; what it prints, its summary with the time that it took, and its
failure come out.
-/

namespace TrialView.Command

/-- What the system tells about a path that could not be read. -/
def contentOfError : IO.Error → FileContent
  | .noFileOrDirectory .. | .noSuchThing .. => .missing
  | .inappropriateType _ code _ => if code.toNat = 20 then .blocked else .directory
  | .permissionDenied _ code _ => .inaccessible s!"Permission denied (os error {code.toNat})"
  | e => .inaccessible (toString e)

def readContent (path : String) : IO FileContent := do
  try
    let bytes ← IO.FS.readBinFile path
    return .bytes bytes.data.toList
  catch e => return contentOfError e

/-- The paths that an invocation may look at. -/
def Invocation.paths (i : Invocation) : List String :=
  match i.task with
  | .project o => [i.config, o.params, o.samples]
  | .fields => []
  | .roster params _ => [params]

def helpText : String :=
  String.join (
    [ "Projects recorded trial samples through actor and field filters",
      "",
      "Usage: trialstore [--config FILE] [-v] project --params FILE --samples FILE [OPTIONS]",
      "       trialstore fields",
      "       trialstore roster --params FILE [--json]",
      "",
      "Options of project: --trial ID, --actor-name NAMES, --actor-class NAMES,",
      "  --actor-impl NAMES, --field NAMES, --glob, --pretty, --report" ].map (· ++ "\n"))

def putError (text : String) : IO Unit := do
  (← IO.getStderr).putStr text

/-- Runs an invocation and gives the exit code. -/
def perform (i : Invocation) : IO UInt32 := do
  let contents ← i.paths.mapM fun path => do return (path, ← readContent path)
  let started ← IO.monoNanosNow
  let outcome := i.run fun path => (contents.lookup path).getD .missing
  IO.print (String.ofList outcome.output)
  (← IO.getStdout).flush
  match outcome.failure, outcome.summary with
  | some f, _ =>
      putError f.text
      return 1
  | none, some tally =>
      let took := (← IO.monoNanosNow) - started
      putError { tally with totalTime := UInt64.ofNat took }.text
      return 0
  | none, none => return 0

/-- What is done instead of a task. -/
def answerStop : Stop → IO UInt32
  | .version => do
      IO.print versionText
      return 0
  | .help => do
      IO.print helpText
      return 0
  | .usage => do
      putError helpText
      return 2

end TrialView.Command

def main (args : List String) : IO UInt32 := do
  match TrialView.Command.readInvocation (← IO.getEnv "TRIALSTORE_CONFIG") args with
  | .ok i => TrialView.Command.perform i
  | .error stop => TrialView.Command.answerStop stop
