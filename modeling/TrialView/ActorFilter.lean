import TrialView.Matcher
import TrialView.Roster

/-!
Which actors of a roster may be seen. A filter without any pattern restricts nothing; otherwise it
holds one flag for each actor of the roster, and an actor beyond the roster is unknown to it.
-/

namespace TrialView

/-- One flag for each place of a roster. -/
structure ActorSet where
  visible : List Bool
deriving Repr, DecidableEq

namespace ActorSet

def rosterSize (s : ActorSet) : Nat := s.visible.length

def get? (s : ActorSet) (actor : UInt32) : Option Bool := s.visible[actor.toNat]?

/-- The places of the visible actors in rising order. -/
def indices (s : ActorSet) : List UInt32 :=
  (s.visible.zipIdx.filter (·.1)).map fun v => UInt32.ofNat v.2

def size (s : ActorSet) : Nat := s.visible.countP id

def isEmpty (s : ActorSet) : Bool := s.size = 0

end ActorSet

inductive ActorFilter where
  | unrestricted
  | restricted (actors : ActorSet)
deriving Repr, DecidableEq

/-- An actor that a filter knows nothing about. -/
structure UnknownActor where
  actor : UInt32
  rosterSize : Nat
deriving Repr, DecidableEq

namespace ActorFilter

/-- Actors pass that pass all three tests. -/
def ofMatchers (names classes implementations : Matcher) (roster : List Actor) : ActorFilter :=
  if names.isUnrestricted && classes.isUnrestricted && implementations.isUnrestricted then
    .unrestricted
  else
    .restricted ⟨roster.map fun a =>
      names.accepts a.name && classes.accepts a.actorClass
        && implementations.accepts a.implementation⟩

def ofPatterns (names classes implementations : List String) (roster : List Actor)
    (mode : MatchMode) : ActorFilter :=
  ofMatchers (.ofPatterns names mode) (.ofPatterns classes mode) (.ofPatterns implementations mode)
    roster

def isUnrestricted : ActorFilter → Bool
  | .unrestricted => true
  | .restricted _ => false

def includes : ActorFilter → UInt32 → Except UnknownActor Bool
  | .unrestricted, _ => .ok true
  | .restricted s, actor =>
      match s.get? actor with
      | some visible => .ok visible
      | none => .error ⟨actor, s.rosterSize⟩

end ActorFilter

end TrialView
