import TrialView.Error
import TrialView.Json.Writer

/-!
What a subscriber may see. A request names actors and fields; a scope is what it comes to for a
roster: an actor filter and a field filter.
-/

namespace TrialView

structure Request where
  actorNames : List String
  actorClasses : List String
  actorImplementations : List String
  fields : List String
deriving Repr, DecidableEq

namespace Request

def blank : Request := ⟨[], [], [], []⟩

def slots {V : Type} [Source V] : List (Slot V Request) :=
  [ .defaulted "actor_names" (Source.list Source.text) fun x r => { r with actorNames := x },
    .defaulted "actor_classes" (Source.list Source.text) fun x r => { r with actorClasses := x },
    .defaulted "actor_implementations" (Source.list Source.text)
      fun x r => { r with actorImplementations := x },
    .defaulted "fields" (Source.list Source.text) fun x r => { r with fields := x } ]

def read {V : Type} [Source V] (v : V) : Except Fault Request :=
  Record.read "struct FilterRequest" slots blank v

def toJson (r : Request) : Json :=
  let texts (xs : List String) : Json := .array (xs.map .text)
  .record [("actor_names", texts r.actorNames), ("actor_classes", texts r.actorClasses),
    ("actor_implementations", texts r.actorImplementations), ("fields", texts r.fields)]

end Request

structure Scope where
  actors : ActorFilter
  fields : FieldFilter
deriving Repr, DecidableEq

namespace Scope

def unrestricted : Scope := ⟨.unrestricted, .unrestricted⟩

/-- The scope of a request. Its fields are looked at first. -/
def ofRequest (r : Request) (roster : List Actor) (mode : MatchMode) :
    Except UnknownField Scope := do
  let fields ← FieldFilter.parse r.fields
  pure ⟨.ofPatterns r.actorNames r.actorClasses r.actorImplementations roster mode, fields⟩

/-- The scope of a request in a trial of a store. The trial is looked up first. -/
def ofTrial (r : Request) (store : Store) (trial : String) (mode : MatchMode) :
    Except Error Scope := do
  let roster ← (store.roster trial).mapError .store
  (ofRequest r roster mode).mapError .filter

def projectWithReport (s : Scope) (sample : Sample) :
    Except ProjectionError (Sample × Report) :=
  sample.projectWithReport s.actors s.fields

def project (s : Scope) (sample : Sample) : Except ProjectionError Sample :=
  sample.project s.actors s.fields

end Scope

end TrialView
