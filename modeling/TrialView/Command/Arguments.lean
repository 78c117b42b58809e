/-!
The arguments of the command line. Options are read from left to right, and the first thing out of
order decides: a question for help or the version is answered, anything else is a mistake in usage.
A value is joined to its option by an equals sign or follows it, and then it may not look like an
option.
-/

namespace TrialView.Command

/-- What an option takes. -/
inductive Value where
  | nothing
  | text
  /-- A path may not be empty. -/
  | path
  /-- Names with commas between them; such an option may be repeated. -/
  | names
deriving Repr, DecidableEq

structure OptionSpec where
  name : String
  letter : Option Char
  value : Value
deriving Repr, DecidableEq

/-- Why no command is run. -/
inductive Stop where
  | help
  | version
  | usage
deriving Repr, DecidableEq

/-- What the question for the version is answered with. -/
def versionText : String := "trialstore 0.1.0\n"

/-- The options that were given, by name, the last one first. -/
abbrev Given := List (String × String)

namespace Given

def has (g : Given) (name : String) : Bool := g.any (·.1 == name)

def value? (g : Given) (name : String) : Option String := g.lookup name

/-- All names given by an option, in order. -/
def names (g : Given) (name : String) : List String :=
  (g.reverse.filter (·.1 == name)).flatMap fun o =>
    (o.2.toList.splitOn ',').map String.ofList

end Given

/-- Notes an option with its value. Only lists of names may be given twice. -/
def give (spec : OptionSpec) (value : String) (g : Given) : Except Stop Given :=
  if spec.value = .path && value.isEmpty then .error .usage
  else if spec.value ≠ .names && g.has spec.name then .error .usage
  else .ok ((spec.name, value) :: g)

/-- Reads the letters behind a single dash. -/
def readLetters (specs : List OptionSpec) : List Char → Given → Except Stop Given
  | [], g => .ok g
  | c :: cs, g =>
      match specs.find? (·.letter = some c) with
      | none => .error .usage
      | some spec =>
          if spec.name = "help" then .error .help
          else if spec.name = "version" then .error .version
          else do readLetters specs cs (← give spec "" g)

/-- Whether an argument can only be an option. -/
def looksLikeOption (arg : String) : Bool :=
  match arg.toList with
  | '-' :: _ :: _ => true
  | _ => false

/-- Reads options up to the first argument that is none, and gives the rest from there. Behind two
dashes only arguments that are no options may follow, and here there are none. -/
def readOptions (specs : List OptionSpec) : List String → Given → Except Stop (Given × List String)
  | [], g => .ok (g, [])
  | arg :: rest, g =>
      match arg.toList with
      | '-' :: '-' :: [] => if rest.isEmpty then .ok (g, []) else .error .usage
      | '-' :: '-' :: cs => do
          let name := String.ofList (cs.takeWhile (· ≠ '='))
          let attached := cs.dropWhile (· ≠ '=')
          match specs.find? (·.name = name) with
          | none => throw .usage
          | some spec =>
              match spec.value, attached with
              | .nothing, [] =>
                  if name = "help" then throw .help
                  else if name = "version" then throw .version
                  else readOptions specs rest (← give spec "" g)
              | .nothing, _ => throw .usage
              | _, _ :: value => readOptions specs rest (← give spec (String.ofList value) g)
              | _, [] =>
                  match rest with
                  | value :: rest =>
                      if looksLikeOption value then throw .usage
                      else readOptions specs rest (← give spec value g)
                  | [] => throw .usage
      | '-' :: c :: cs => do readOptions specs rest (← readLetters specs (c :: cs) g)
      | _ => .ok (g, arg :: rest)

structure ProjectOptions where
  params : String
  samples : String
  trial : Option String
  actorNames : List String
  actorClasses : List String
  actorImplementations : List String
  fields : List String
  glob : Bool
  pretty : Bool
  report : Bool
deriving Repr, DecidableEq

inductive Task where
  | project (options : ProjectOptions)
  | fields
  | roster (params : String) (json : Bool)
deriving Repr, DecidableEq

structure Invocation where
  config : String
  verbose : Bool
  task : Task
deriving Repr, DecidableEq

def helpSpec : OptionSpec := ⟨"help", some 'h', .nothing⟩

def mainSpecs : List OptionSpec :=
  [⟨"config", none, .path⟩, ⟨"verbose", some 'v', .nothing⟩, helpSpec,
    ⟨"version", some 'V', .nothing⟩]

def projectSpecs : List OptionSpec :=
  [⟨"params", none, .path⟩, ⟨"samples", none, .path⟩, ⟨"trial", none, .text⟩,
    ⟨"actor-name", none, .names⟩, ⟨"actor-class", none, .names⟩, ⟨"actor-impl", none, .names⟩,
    ⟨"field", none, .names⟩, ⟨"glob", none, .nothing⟩, ⟨"pretty", none, .nothing⟩,
    ⟨"report", none, .nothing⟩, helpSpec]

def rosterSpecs : List OptionSpec :=
  [⟨"params", none, .path⟩, ⟨"json", none, .nothing⟩, helpSpec]

/-- Reads the options of a task, behind which nothing may be left. -/
def readAll (specs : List OptionSpec) (args : List String) : Except Stop Given := do
  match ← readOptions specs args [] with
  | (g, []) => pure g
  | (_, _ :: _) => throw .usage

def required (g : Given) (name : String) : Except Stop String :=
  match g.value? name with
  | some v => .ok v
  | none => .error .usage

def readProject (args : List String) : Except Stop Task := do
  let g ← readAll projectSpecs args
  pure (.project
    { params := ← required g "params"
      samples := ← required g "samples"
      trial := g.value? "trial"
      actorNames := g.names "actor-name"
      actorClasses := g.names "actor-class"
      actorImplementations := g.names "actor-impl"
      fields := g.names "field"
      glob := g.has "glob"
      pretty := g.has "pretty"
      report := g.has "report" })

def readRoster (args : List String) : Except Stop Task := do
  let g ← readAll rosterSpecs args
  pure (.roster (← required g "params") (g.has "json"))

def taskNames : List String := ["project", "fields", "roster", "help"]

/-- Reads the name of a task and its options. -/
def readTask : List String → Except Stop Task
  | "project" :: args => readProject args
  | "fields" :: args => do
      let _ ← readAll [helpSpec] args
      pure .fields
  | "roster" :: args => readRoster args
  | ["help"] => .error .help
  | ["help", name] => .error (if name ∈ taskNames then .help else .usage)
  | _ => .error .usage

/-- Where the configuration is looked for if nothing says otherwise. -/
def defaultConfig : String := "trialstore.yml"

/-- The configuration path: the option comes before the setting of the environment. -/
def configPath (g : Given) (setting : Option String) : Except Stop String :=
  match g.value? "config", setting with
  | some path, _ => .ok path
  | none, some path => if path.isEmpty then .error .usage else .ok path
  | none, none => .ok defaultConfig

/-- Reads the command line, given the setting of the environment for the configuration path. -/
def readInvocation (setting : Option String) (args : List String) : Except Stop Invocation := do
  let (g, rest) ← readOptions mainSpecs args []
  let task ← readTask rest
  pure ⟨← configPath g setting, g.has "verbose", task⟩

end TrialView.Command
