import TrialView.Roster
import TrialView.Sample.Form

/-!
Trial parameters in documents. An empty configuration is left out of the written form; an absent
environment is written as null.
-/

namespace TrialView

/-- A member for bytes that are left out when there are none. -/
def bytesMember (name : String) : List UInt8 → List (String × Json)
  | [] => []
  | b :: bs => [(name, .ofBytes (b :: bs))]

namespace Actor

def blank : Actor := ⟨"", "", "", "", []⟩

def slots {V : Type} [Source V] : List (Slot V Actor) :=
  [ .needed "name" Source.text fun x a => { a with name := x },
    .needed "actor_class" Source.text fun x a => { a with actorClass := x },
    .needed "implementation" Source.text fun x a => { a with implementation := x },
    .defaulted "endpoint" Source.text fun x a => { a with endpoint := x },
    .defaulted "config" Source.bytes fun x a => { a with config := x } ]

def read {V : Type} [Source V] (v : V) : Except Fault Actor :=
  Record.read "struct ActorDescriptor" slots blank v

def toJson (a : Actor) : Json :=
  .record ([("name", .text a.name), ("actor_class", .text a.actorClass),
    ("implementation", .text a.implementation), ("endpoint", .text a.endpoint)]
    ++ bytesMember "config" a.config)

end Actor

namespace Environment

def blank : Environment := ⟨"", "", []⟩

def slots {V : Type} [Source V] : List (Slot V Environment) :=
  [ .defaulted "endpoint" Source.text fun x e => { e with endpoint := x },
    .defaulted "implementation" Source.text fun x e => { e with implementation := x },
    .defaulted "config" Source.bytes fun x e => { e with config := x } ]

def read {V : Type} [Source V] (v : V) : Except Fault Environment :=
  Record.read "struct EnvironmentParams" slots blank v

def toJson (e : Environment) : Json :=
  .record ([("endpoint", .text e.endpoint), ("implementation", .text e.implementation)]
    ++ bytesMember "config" e.config)

end Environment

namespace Params

def slots {V : Type} [Source V] : List (Slot V Params) :=
  [ .defaulted "trial_config" Source.bytes fun x p => { p with config := x },
    .defaulted "max_steps" Source.word32 fun x p => { p with maxSteps := x },
    .defaulted "max_inactivity" Source.word32 fun x p => { p with maxInactivity := x },
    .defaulted "environment" (Source.optional Environment.read)
      fun x p => { p with environment := x },
    .defaulted "actors" (Source.list Actor.read) fun x p => { p with actors := x } ]

def read {V : Type} [Source V] (v : V) : Except Fault Params :=
  Record.read "struct TrialParams" slots blank v

def toJson (p : Params) : Json :=
  .record (bytesMember "trial_config" p.config
    ++ [("max_steps", wordJson p.maxSteps), ("max_inactivity", wordJson p.maxInactivity),
      ("environment", (p.environment.map Environment.toJson).getD .null),
      ("actors", .array (p.actors.map Actor.toJson))])

end Params

end TrialView
