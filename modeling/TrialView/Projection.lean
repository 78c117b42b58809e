import TrialView.ActorFilter
import TrialView.FieldFilter
import TrialView.Sample

/-!
The projection of a sample through an actor filter and a field filter. First the steps of visible
actors are kept, in order, with the excluded fields cleared. Then every payload that no kept step
refers to any more is emptied; the table keeps its length, so references mean the same before and
after. Payloads are looked at once for all kept steps, because steps share them. Only when neither
filter restricts anything do payloads without a reference stay.

A reference beyond the table is a fault of the sample even in a step that would be dropped, so
references are checked before anything else.
-/

namespace TrialView

/-- Why a sample cannot be projected. -/
inductive ProjectionError where
  | payloadOutOfRange (actor : UInt32) (reference : UInt32) (tableSize : Nat)
  | unknownActor (actor : UInt32) (rosterSize : Nat)
deriving Repr, DecidableEq

namespace ProjectionError

def message : ProjectionError → String
  | .payloadOutOfRange actor reference size =>
      s!"actor {actor.toNat} references payload {reference.toNat} but " ++
        s!"the table holds {size} entries"
  | .unknownActor actor size =>
      s!"sample names actor {actor.toNat} but the roster holds {size} actors"

end ProjectionError

/-- What a projection removed. -/
structure Report where
  stepsKept : Nat
  stepsDropped : Nat
  /-- Payloads of the result that are not empty. -/
  payloadsLive : Nat
  /-- Payloads that had content and are empty in the result. -/
  payloadsTruncated : Nat
  bytesReleased : Nat
deriving Repr, DecidableEq

namespace Report

/-- No step was dropped and no payload emptied. -/
def isIdentity (r : Report) : Bool := r.stepsDropped = 0 && r.payloadsTruncated = 0

end Report

namespace Step

/-- The step with each field cleared that a filter leaves out. -/
def clear (fields : FieldFilter) (s : Step) : Step :=
  let kept (f : Field) : Bool := fields.includes f
  { actor := s.actor
    observation := if kept .observation then s.observation else none
    action := if kept .action then s.action else none
    reward := if kept .reward then s.reward else none
    receivedRewards := if kept .receivedRewards then s.receivedRewards else []
    sentRewards := if kept .sentRewards then s.sentRewards else []
    receivedMessages := if kept .receivedMessages then s.receivedMessages else []
    sentMessages := if kept .sentMessages then s.sentMessages else [] }

/-- The step as far as a filter shows it. A filter that restricts nothing is not asked for every
field: the step stays as it is. -/
def retain (fields : FieldFilter) (s : Step) : Step :=
  if fields.isUnrestricted then s else s.clear fields

end Step

namespace Projection

/-- Looks for a reference beyond a payload table of some size. -/
def checkReferences (size : Nat) : List Step → Except ProjectionError Unit
  | [] => .ok ()
  | s :: ss =>
      match s.payloadRefs.find? (fun r => size ≤ r.toNat) with
      | some r => .error (.payloadOutOfRange s.actor r size)
      | none => checkReferences size ss

/-- The steps of visible actors, and how many there are of others. An actor that the filter does not
know ends the search. -/
def visibleSteps (actors : ActorFilter) : List Step → Except ProjectionError (List Step × Nat)
  | [] => .ok ([], 0)
  | s :: ss =>
      match actors.includes s.actor with
      | .error e => .error (.unknownActor e.actor e.rosterSize)
      | .ok visible => do
          let (shown, hidden) ← visibleSteps actors ss
          pure (if visible then (s :: shown, hidden) else (shown, hidden + 1))

/-- Whether some step refers to a place of the payload table. -/
def isLive (steps : List Step) (place : Nat) : Bool :=
  steps.any fun s => s.payloadRefs.any (·.toNat = place)

/-- Payloads and whether each of them is to be kept. -/
abbrev Slots := List (List UInt8 × Bool)

def slotsOf (keep : Nat → Bool) (payloads : List (List UInt8)) : Slots :=
  payloads.zipIdx.map fun p => (p.1, keep p.2)

/-- The table with the payloads emptied that are not to be kept. -/
def sweep (slots : Slots) : List (List UInt8) :=
  slots.map fun (p, keep) => if keep then p else []

def countLive (slots : Slots) : Nat :=
  slots.countP fun (p, keep) => keep && !p.isEmpty

def countTruncated (slots : Slots) : Nat :=
  slots.countP fun (p, keep) => !keep && !p.isEmpty

def bytesReleased (slots : Slots) : Nat :=
  (slots.flatMap fun (p, keep) => if keep then [] else p).length

end Projection

namespace Sample

open Projection

/-- The sample as seen through both filters, and what was removed from it. -/
def projectWithReport (s : Sample) (actors : ActorFilter) (fields : FieldFilter) :
    Except ProjectionError (Sample × Report) := do
  checkReferences s.payloads.length s.steps
  let (visible, hidden) ← visibleSteps actors s.steps
  let steps := visible.map (Step.retain fields)
  let keepsAll := actors.isUnrestricted && fields.isUnrestricted
  let slots := slotsOf (fun place => keepsAll || isLive steps place) s.payloads
  pure ({ s with steps := steps, payloads := sweep slots },
    { stepsKept := steps.length
      stepsDropped := hidden
      payloadsLive := countLive slots
      payloadsTruncated := countTruncated slots
      bytesReleased := bytesReleased slots })

def project (s : Sample) (actors : ActorFilter) (fields : FieldFilter) :
    Except ProjectionError Sample :=
  Prod.fst <$> s.projectWithReport actors fields

end Sample

end TrialView
