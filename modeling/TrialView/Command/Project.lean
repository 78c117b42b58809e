import TrialView.Command.Arguments
import TrialView.Command.Failure
import TrialView.Roster.Form
import TrialView.SampleFile
import TrialView.Scope
import TrialView.Tally

/-!
The tasks of the command line on what they are given: the projection of the samples of one trial,
the list of field identifiers, and the roster of a trial. What a task prints is built up in full;
samples printed before a failure stay printed.
-/

namespace TrialView.Command

/-- What a task prints, why it failed if it did, and the counts that it reports if asked to. -/
structure Outcome where
  output : List Char
  failure : Option Failure
  summary : Option Tally
deriving Repr, DecidableEq

namespace Outcome

def printed (output : List Char) : Outcome := ⟨output, none, none⟩

def failed (f : Failure) : Outcome := ⟨[], some f, none⟩

end Outcome

/-- The parameters in a file. -/
def readParams [Yaml.Reader] (path : String) (f : FileContent) : Except Failure Params := do
  let cs ← f.readText.mapError fun reason => ⟨s!"Failed to read trial params {path}", [reason]⟩
  (Yaml.Reader.decode Params.read cs).mapError fun fault =>
    ⟨s!"Failed to parse trial params {path}", [fault.message]⟩

/-- The samples in a file. A directory can be opened, but not read. -/
def readSamples (path : String) (f : FileContent) : Except Failure (List Sample) := do
  let unopened (reason : String) : Failure := ⟨s!"Failed to open samples {path}", [reason]⟩
  let unreadable (reason : String) : Failure := ⟨s!"Failed to read {path}", [reason]⟩
  match f with
  | .missing => throw (unopened FileContent.missingReason)
  | .blocked => throw (unopened FileContent.blockedReason)
  | .inaccessible reason => throw (unopened reason)
  | .directory => throw (unreadable FileContent.directoryReason)
  | .bytes bs =>
      match SampleFile.read bs with
      | .ok samples => pure samples
      | .error .encoding => throw (unreadable FileContent.encodingReason)
      | .error (.malformed line fault) =>
          throw ⟨s!"Failed to parse sample on line {line}", [fault.message]⟩

namespace ProjectOptions

/-- What is asked for: without fields of their own, options ask for the default ones. -/
def request (o : ProjectOptions) (config : Config) : Request :=
  { actorNames := o.actorNames
    actorClasses := o.actorClasses
    actorImplementations := o.actorImplementations
    fields := if o.fields.isEmpty then config.defaultFields else o.fields }

def mode (o : ProjectOptions) (config : Config) : MatchMode :=
  if o.glob then .glob else config.matching

def style (o : ProjectOptions) (config : Config) : Json.Style :=
  if o.pretty || config.output.pretty then .indented else .compact

def reports (o : ProjectOptions) (config : Config) : Bool :=
  o.report || config.output.report

/-- The trial to project: the one that is named, or that of the first sample. -/
def selected? (o : ProjectOptions) (samples : List Sample) : Option String :=
  match o.trial with
  | some id => some id
  | none => samples.head?.map (·.trialId)

end ProjectOptions

/-- Adds the samples of one trial to a store and passes over those of others. -/
def loadSamples (trial : String) : Store → List Sample → Except Failure Store
  | store, [] => .ok store
  | store, s :: rest =>
      if s.trialId = trial then do
        let store ← (store.add s).mapError fun e =>
          ⟨s!"Failed to load sample at tick {s.tick.toNat}", [e.message]⟩
        loadSamples trial store rest
      else loadSamples trial store rest

/-- A store with one trial and its samples. -/
def loadTrial (trial : String) (params : Params) (samples : List Sample) :
    Except Failure Store := do
  let store ← (Store.empty.create trial params).mapError fun e => ⟨e.message, []⟩
  loadSamples trial store samples

/-- Projects samples one after the other until one fails: what is printed, the failure, and the
counts. -/
def printSamples (scope : Scope) (style : Json.Style) :
    List Sample → Tally → List Char × Option Failure × Tally
  | [], tally => ([], none, tally)
  | s :: rest, tally =>
      let outcome := scope.projectWithReport s
      let tally := tally.count outcome .zero
      match outcome with
      | .error e => ([], some ⟨"Failed to project sample", (Error.projection e).causes⟩, tally)
      | .ok (projected, _) =>
          let (output, failure, tally) := printSamples scope style rest tally
          (projected.render style ++ '\n' :: output, failure, tally)

/-- Projects the samples of a trial that is loaded. -/
def projectTrial (o : ProjectOptions) (config : Config) (trial : String) (store : Store) :
    Except Failure Outcome := do
  let scope ← (Scope.ofTrial (o.request config) store trial (o.mode config)).mapError fun e =>
    ⟨"Invalid filter request", e.causes⟩
  let samples ← (store.samples trial).mapError fun e => ⟨(Error.store e).message, [e.message]⟩
  let (output, failure, tally) := printSamples scope (o.style config) samples .zero
  let summary := if o.reports config && failure.isNone then some tally else none
  pure ⟨output, failure, summary⟩

/-- Projects the samples of the selected trial; without any sample there may be none to select. -/
def projectSamples (o : ProjectOptions) (config : Config) (params : Params)
    (samples : List Sample) : Except Failure Outcome :=
  match o.selected? samples with
  | none => .ok (.printed [])
  | some trial => do
      let store ← loadTrial trial params samples
      projectTrial o config trial store

/-- Text and blanks up to a width. -/
def padRight (width : Nat) (cs : List Char) : List Char :=
  cs ++ List.replicate (width - cs.length) ' '

def padLeft (width : Nat) (cs : List Char) : List Char :=
  List.replicate (width - cs.length) ' ' ++ cs

/-- The names and identifiers of all fields, one field a line. -/
def fieldList : List Char :=
  Field.all.flatMap fun f =>
    padRight 18 f.name.toList ++ ' ' :: (f.identifier.toList ++ ['\n'])

def rosterLine (actor : Actor × Nat) : List Char :=
  let (a, index) := actor
  padLeft 3 (Number.natText index)
    ++ s!"  {a.name}  [{a.actorClass}]  {a.implementation}\n".toList

def rosterEntry (actor : Actor × Nat) : Json :=
  let (a, index) := actor
  .record [("index", .ofNat index), ("name", .text a.name), ("actor_class", .text a.actorClass),
    ("implementation", .text a.implementation)]

/-- The roster of a trial as text or as JSON. -/
def rosterText (path : String) (json : Bool) (params : Params) : List Char :=
  let actors := params.roster.zipIdx
  if json then Json.render .indented (.array (actors.map rosterEntry)) ++ ['\n']
  else if actors.isEmpty then s!"No actors in {path}\n".toList
  else actors.flatMap rosterLine

/-- Does a task. Files are looked up in the order in which their failures are told. -/
def Task.perform [Yaml.Reader] (lookup : String → FileContent) (config : String) :
    Task → Except Failure Outcome
  | .project o => do
      let config ← (Config.ofFileOrDefault (lookup config)).mapError fun e =>
        ⟨"Failed to load configuration", e.causes⟩
      let params ← readParams o.params (lookup o.params)
      let samples ← readSamples o.samples (lookup o.samples)
      projectSamples o config params samples
  | .fields => .ok (.printed fieldList)
  | .roster path json => do
      let params ← readParams path (lookup path)
      pure (.printed (rosterText path json params))

/-- Runs an invocation on what is found at paths. -/
def Invocation.run [Yaml.Reader] (i : Invocation) (lookup : String → FileContent) : Outcome :=
  match i.task.perform lookup i.config with
  | .ok outcome => outcome
  | .error f => .failed f

end TrialView.Command
