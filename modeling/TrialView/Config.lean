import TrialView.Error
import TrialView.FileContent
import TrialView.Json.Writer
import TrialView.Yaml.Source

/-!
The configuration: how patterns are matched, how results are printed, and the fields kept when a
request names none. It is read from a YAML file; where there is no file the defaults hold.
-/

namespace TrialView

structure Output where
  /-- Samples are printed indented. -/
  pretty : Bool
  /-- A summary is printed at the end. -/
  report : Bool
deriving Repr, DecidableEq

namespace Output

def blank : Output := ⟨false, false⟩

def slots {V : Type} [Source V] : List (Slot V Output) :=
  [ .defaulted "pretty" Source.bool fun x o => { o with pretty := x },
    .defaulted "report" Source.bool fun x o => { o with report := x } ]

def read {V : Type} [Source V] (v : V) : Except Fault Output :=
  Record.read "struct OutputConfig" slots blank v

def toJson (o : Output) : Json :=
  .record [("pretty", .bool o.pretty), ("report", .bool o.report)]

end Output

structure Config where
  matching : MatchMode
  output : Output
  defaultFields : List String
deriving Repr, DecidableEq

namespace Config

def blank : Config := ⟨.exact, .blank, []⟩

def slots {V : Type} [Source V] : List (Slot V Config) :=
  [ .defaulted "matching" MatchMode.read fun x c => { c with matching := x },
    .defaulted "output" Output.read fun x c => { c with output := x },
    .defaulted "default_fields" (Source.list Source.text) fun x c => { c with defaultFields := x } ]

def read {V : Type} [Source V] (v : V) : Except Fault Config :=
  Record.read "struct Config" slots blank v

def toJson (c : Config) : Json :=
  .record [("matching", .text c.matching.name), ("output", c.output.toJson),
    ("default_fields", .array (c.defaultFields.map .text))]

/-- The configuration in a file. -/
def ofFile [Yaml.Reader] (f : FileContent) : Except ConfigError Config := do
  let cs ← f.readText.mapError .unreadable
  (Yaml.Reader.decode read cs).mapError fun fault => .malformed fault.message

/-- The configuration in a file if there is one, and the defaults otherwise. -/
def ofFileOrDefault [Yaml.Reader] (f : FileContent) : Except ConfigError Config :=
  if f.present then ofFile f else .ok blank

/-- The filter for requests that name no field. -/
def defaultFieldFilter (c : Config) : Except UnknownField FieldFilter :=
  FieldFilter.parse c.defaultFields

end Config

end TrialView
