import TrialView.Peer

/-!
Trial samples. A sample is one tick of a trial: what each actor reported, and a table of payloads
that the reports refer to by position. One payload may be referred to from many places, which is
why the reports hold references and not bytes.
-/

namespace TrialView

open Number

/-- A reward entry; the peer is who sent it or whom it was sent to. -/
structure Reward where
  peer : Peer
  value : Single
  confidence : Single
  userData : Option UInt32
deriving Repr, DecidableEq

structure Message where
  peer : Peer
  payload : UInt32
deriving Repr, DecidableEq

/-- What one actor reported during a tick. -/
structure Step where
  actor : UInt32
  observation : Option UInt32
  action : Option UInt32
  reward : Option Single
  receivedRewards : List Reward
  sentRewards : List Reward
  receivedMessages : List Message
  sentMessages : List Message
deriving Repr, DecidableEq

structure Sample where
  userId : String
  trialId : String
  tick : UInt64
  timestamp : UInt64
  steps : List Step
  payloads : List (List UInt8)
deriving Repr, DecidableEq

namespace Step

def blank : Step := ⟨0, none, none, none, [], [], [], []⟩

/-- The payload references of a step, field by field. -/
def payloadRefs (s : Step) : List UInt32 :=
  s.observation.toList ++ s.action.toList
    ++ s.receivedRewards.filterMap (·.userData) ++ s.sentRewards.filterMap (·.userData)
    ++ s.receivedMessages.map (·.payload) ++ s.sentMessages.map (·.payload)

end Step

namespace Sample

def blank : Sample := ⟨"", "", 0, 0, [], []⟩

def payload? (s : Sample) (ref : UInt32) : Option (List UInt8) :=
  s.payloads[ref.toNat]?

/-- Bytes in the payload table. -/
def payloadBytes (s : Sample) : Nat :=
  s.payloads.flatten.length

end Sample

end TrialView
