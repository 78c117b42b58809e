import TrialView.Json.Writer
import TrialView.Sample

/-!
Samples in documents: how each record is read from any source, and how it is written as JSON. What
is absent or empty in a step, and the user data of a reward, is left out of the written form.
-/

namespace TrialView

open Number

/-- A member for something that may be absent. -/
def optionMember {α : Type} (name : String) (toJson : α → Json) : Option α → List (String × Json)
  | none => []
  | some a => [(name, toJson a)]

/-- A member for a list that is left out when empty. -/
def listMember {α : Type} (name : String) (toJson : α → Json) : List α → List (String × Json)
  | [] => []
  | a :: as => [(name, .array ((a :: as).map toJson))]

def wordJson (n : UInt32) : Json := .ofNat n.toNat

namespace Peer

def toJson (p : Peer) : Json := .ofInt p.toInt

end Peer

namespace Reward

def blank : Reward := ⟨.environment, .zero, .zero, none⟩

def slots {V : Type} [Source V] : List (Slot V Reward) :=
  [ .needed "peer" Peer.read fun x r => { r with peer := x },
    .needed "value" Source.single fun x r => { r with value := x },
    .needed "confidence" Source.single fun x r => { r with confidence := x },
    .defaulted "user_data" (Source.optional Source.word32) fun x r => { r with userData := x } ]

def read {V : Type} [Source V] (v : V) : Except Fault Reward :=
  Record.read "struct SampleReward" slots blank v

def toJson (r : Reward) : Json :=
  .record ([("peer", r.peer.toJson), ("value", .ofSingle r.value),
    ("confidence", .ofSingle r.confidence)] ++ optionMember "user_data" wordJson r.userData)

end Reward

namespace Message

def blank : Message := ⟨.environment, 0⟩

def slots {V : Type} [Source V] : List (Slot V Message) :=
  [ .needed "peer" Peer.read fun x m => { m with peer := x },
    .needed "payload" Source.word32 fun x m => { m with payload := x } ]

def read {V : Type} [Source V] (v : V) : Except Fault Message :=
  Record.read "struct SampleMessage" slots blank v

def toJson (m : Message) : Json :=
  .record [("peer", m.peer.toJson), ("payload", wordJson m.payload)]

end Message

namespace Step

def slots {V : Type} [Source V] : List (Slot V Step) :=
  [ .needed "actor" Source.word32 fun x s => { s with actor := x },
    .defaulted "observation" (Source.optional Source.word32) fun x s => { s with observation := x },
    .defaulted "action" (Source.optional Source.word32) fun x s => { s with action := x },
    .defaulted "reward" (Source.optional Source.single) fun x s => { s with reward := x },
    .defaulted "received_rewards" (Source.list Reward.read)
      fun x s => { s with receivedRewards := x },
    .defaulted "sent_rewards" (Source.list Reward.read) fun x s => { s with sentRewards := x },
    .defaulted "received_messages" (Source.list Message.read)
      fun x s => { s with receivedMessages := x },
    .defaulted "sent_messages" (Source.list Message.read) fun x s => { s with sentMessages := x } ]

def read {V : Type} [Source V] (v : V) : Except Fault Step :=
  Record.read "struct ActorStepSample" slots blank v

def toJson (s : Step) : Json :=
  .record ([("actor", wordJson s.actor)]
    ++ optionMember "observation" wordJson s.observation
    ++ optionMember "action" wordJson s.action
    ++ optionMember "reward" Json.ofSingle s.reward
    ++ listMember "received_rewards" Reward.toJson s.receivedRewards
    ++ listMember "sent_rewards" Reward.toJson s.sentRewards
    ++ listMember "received_messages" Message.toJson s.receivedMessages
    ++ listMember "sent_messages" Message.toJson s.sentMessages)

end Step

namespace Sample

def slots {V : Type} [Source V] : List (Slot V Sample) :=
  [ .defaulted "user_id" Source.text fun x s => { s with userId := x },
    .needed "trial_id" Source.text fun x s => { s with trialId := x },
    .needed "tick" Source.word64 fun x s => { s with tick := x },
    .defaulted "timestamp" Source.word64 fun x s => { s with timestamp := x },
    .defaulted "actor_samples" (Source.list Step.read) fun x s => { s with steps := x },
    .defaulted "payloads" (Source.list Source.bytes) fun x s => { s with payloads := x } ]

def read {V : Type} [Source V] (v : V) : Except Fault Sample :=
  Record.read "struct TrialSample" slots blank v

def toJson (s : Sample) : Json :=
  .record [("user_id", .text s.userId), ("trial_id", .text s.trialId),
    ("tick", .ofNat s.tick.toNat), ("timestamp", .ofNat s.timestamp.toNat),
    ("actor_samples", .array (s.steps.map Step.toJson)),
    ("payloads", .array (s.payloads.map Json.ofBytes))]

/-- The text of a sample in one of the two styles. -/
def render (style : Json.Style) (s : Sample) : List Char :=
  s.toJson.render style

end Sample

end TrialView
