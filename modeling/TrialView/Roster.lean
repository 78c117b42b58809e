/-!
The parameters of a trial and the roster of its actors. An actor is known to samples by its place in
the roster.
-/

namespace TrialView

structure Actor where
  name : String
  actorClass : String
  implementation : String
  endpoint : String
  config : List UInt8
deriving Repr, DecidableEq

structure Environment where
  endpoint : String
  implementation : String
  config : List UInt8
deriving Repr, DecidableEq

structure Params where
  config : List UInt8
  maxSteps : UInt32
  maxInactivity : UInt32
  environment : Option Environment
  actors : List Actor
deriving Repr, DecidableEq

namespace Params

def blank : Params := ⟨[], 0, 0, none, []⟩

def roster (p : Params) : List Actor := p.actors

end Params

end TrialView
