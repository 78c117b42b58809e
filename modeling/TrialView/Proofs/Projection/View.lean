import TrialView.Proofs.Projection.Content
import TrialView.Proofs.Projection.Table

/-!
What a projection comes to. Either the sample has a fault, a reference beyond its payload table or
an actor that the filter does not know, or its projection is its view, which is defined for every
sample. The field filter has no part in the faults, and the report can be read off the sample and
its view.
-/

namespace TrialView

open Projection

namespace ActorFilter

/-- The filter knows the actor and includes it. -/
def shows (filter : ActorFilter) (actor : UInt32) : Bool :=
  match filter.includes actor with
  | .ok visible => visible
  | .error _ => false

@[simp] theorem shows_unrestricted (actor : UInt32) : unrestricted.shows actor = true := rfl

theorem isUnrestricted_iff {filter : ActorFilter} :
    filter.isUnrestricted = true ↔ filter = .unrestricted := by
  cases filter <;> simp [isUnrestricted]

end ActorFilter

theorem FieldFilter.isUnrestricted_iff {filter : FieldFilter} :
    filter.isUnrestricted = true ↔ filter = .unrestricted := by
  cases filter <;> simp [isUnrestricted]

namespace Step

/-- The fault of a step's first reference beyond a payload table. -/
def dangling? (size : Nat) (s : Step) : Option ProjectionError :=
  (s.payloadRefs.find? fun r => size ≤ r.toNat).map fun r => .payloadOutOfRange s.actor r size

/-- The fault of a step whose actor the filter does not know. -/
def stranger? (actors : ActorFilter) (s : Step) : Option ProjectionError :=
  match actors.includes s.actor with
  | .ok _ => none
  | .error e => some (.unknownActor e.actor e.rosterSize)

theorem dangling?_eq_none_iff {size : Nat} {s : Step} :
    s.dangling? size = none ↔ ∀ r, s.Refers r → r.toNat < size := by
  simp [dangling?, mem_payloadRefs]

theorem stranger?_eq_none_iff {actors : ActorFilter} {s : Step} :
    s.stranger? actors = none ↔ ∃ visible, actors.includes s.actor = .ok visible := by
  unfold stranger?
  cases actors.includes s.actor <;> simp

@[simp] theorem stranger?_retain (actors : ActorFilter) (fields : FieldFilter) (s : Step) :
    (s.retain fields).stranger? actors = s.stranger? actors := by
  rw [stranger?, retain_actor, stranger?]

@[simp] theorem findSome?_stranger?_unrestricted (steps : List Step) :
    steps.findSome? (·.stranger? .unrestricted) = none := by
  rw [List.findSome?_eq_none_iff]
  intro step _
  rfl

/-- Whether an actor is known depends on the length of the roster alone. -/
theorem stranger?_restricted (actors : ActorSet) (s : Step) :
    s.stranger? (.restricted actors) =
      if s.actor.toNat < actors.rosterSize then none
      else some (.unknownActor s.actor actors.rosterSize) := by
  by_cases hknown : s.actor.toNat < actors.visible.length
  · have hget : actors.get? s.actor = some actors.visible[s.actor.toNat] :=
      List.getElem?_eq_getElem hknown
    simp [stranger?, ActorFilter.includes, ActorSet.rosterSize, hget, hknown]
  · have hget : actors.get? s.actor = none := List.getElem?_eq_none (by omega)
    simp [stranger?, ActorFilter.includes, ActorSet.rosterSize, hget, hknown]

end Step

namespace Projection

theorem checkReferences_eq (size : Nat) (steps : List Step) :
    checkReferences size steps =
      match steps.findSome? (·.dangling? size) with
      | some e => .error e
      | none => .ok () := by
  induction steps with
  | nil => rfl
  | cons step steps ih =>
      rw [checkReferences, List.findSome?_cons, ih]
      cases hfind : step.payloadRefs.find? (fun r => size ≤ r.toNat) <;>
        simp [Step.dangling?, hfind]

theorem visibleSteps_eq (actors : ActorFilter) (steps : List Step) :
    visibleSteps actors steps =
      match steps.findSome? (·.stranger? actors) with
      | some e => .error e
      | none => .ok (steps.filter fun step => actors.shows step.actor,
          steps.countP fun step => !actors.shows step.actor) := by
  induction steps with
  | nil => rfl
  | cons step steps ih =>
      rw [visibleSteps, List.findSome?_cons, List.filter_cons, List.countP_cons, Step.stranger?,
        ActorFilter.shows]
      cases hincludes : actors.includes step.actor with
      | error e => rfl
      | ok visible =>
          simp only [ih]
          cases steps.findSome? (·.stranger? actors) <;> cases visible <;> rfl

theorem isLive_iff {steps : List Step} {place : Nat} :
    isLive steps place = true ↔ ∃ step ∈ steps, ∃ r, step.Refers r ∧ r.toNat = place := by
  simp [isLive, Step.mem_payloadRefs]

end Projection

namespace Sample

/-- Why a sample cannot be projected. Its references are looked at before its actors. -/
def fault? (s : Sample) (actors : ActorFilter) : Option ProjectionError :=
  (s.steps.findSome? (·.dangling? s.payloads.length)).or
    (s.steps.findSome? (·.stranger? actors))

/-- The steps of the actors that are shown, with the fields that are shown. -/
def shownSteps (s : Sample) (actors : ActorFilter) (fields : FieldFilter) : List Step :=
  (s.steps.filter fun step => actors.shows step.actor).map (Step.retain fields)

/-- Whether the payload at a place stays. -/
def keepsPlace (s : Sample) (actors : ActorFilter) (fields : FieldFilter) (place : Nat) : Bool :=
  (actors.isUnrestricted && fields.isUnrestricted) || isLive (s.shownSteps actors fields) place

/-- What both filters leave of a sample, whether it has a fault or not. -/
def view (s : Sample) (actors : ActorFilter) (fields : FieldFilter) : Sample :=
  { s with
    steps := s.shownSteps actors fields
    payloads := sweep (slotsOf (s.keepsPlace actors fields) s.payloads) }

/-- A filter that shows the actors of all steps hides no step. -/
theorem shownSteps_of_shows {s : Sample} {actors : ActorFilter}
    (h : ∀ step ∈ s.steps, actors.shows step.actor = true) (fields : FieldFilter) :
    s.shownSteps actors fields = s.steps.map (Step.retain fields) := by
  rw [shownSteps, List.filter_eq_self.mpr h]

theorem shownSteps_unrestricted (s : Sample) (fields : FieldFilter) :
    s.shownSteps .unrestricted fields = s.steps.map (Step.retain fields) := by
  apply shownSteps_of_shows
  intro step _
  rfl

/-- A step is shown or counted as hidden. -/
theorem steps_length_view_add (s : Sample) (actors : ActorFilter) (fields : FieldFilter) :
    (s.view actors fields).steps.length + s.steps.countP (fun step => !actors.shows step.actor) =
      s.steps.length := by
  have hall := List.length_eq_countP_add_countP (fun step => actors.shows step.actor) (l := s.steps)
  simp only [Bool.not_eq_true, Bool.decide_eq_false] at hall
  rw [hall, view, shownSteps, List.length_map, ← List.countP_eq_length_filter]

theorem steps_length_view_le {s : Sample} {actors : ActorFilter} {fields : FieldFilter} :
    (s.view actors fields).steps.length ≤ s.steps.length :=
  Nat.le.intro (s.steps_length_view_add actors fields)

theorem payloadBytes_view_le {s : Sample} {actors : ActorFilter} {fields : FieldFilter} :
    (s.view actors fields).payloadBytes ≤ s.payloadBytes := by
  have hbytes := bytesReleased_add (slotsOf (s.keepsPlace actors fields) s.payloads)
  rw [slotsOf_fst] at hbytes
  simp only [payloadBytes, view]
  omega

theorem mem_shownSteps {s : Sample} {actors : ActorFilter} {fields : FieldFilter} {shown : Step} :
    shown ∈ s.shownSteps actors fields ↔
      ∃ step ∈ s.steps, actors.shows step.actor = true ∧ step.retain fields = shown := by
  simp only [shownSteps, List.mem_map, List.mem_filter, and_assoc]

/-- What a shown step refers to, a step of the sample refers to. -/
theorem isLive_of_isLive_shownSteps {s : Sample} {actors : ActorFilter} {fields : FieldFilter}
    {place : Nat} (h : isLive (s.shownSteps actors fields) place = true) :
    isLive s.steps place = true := by
  obtain ⟨_, hshown, r, hrefers, hplace⟩ := isLive_iff.mp h
  obtain ⟨step, hstep, _, rfl⟩ := mem_shownSteps.mp hshown
  exact isLive_iff.mpr ⟨step, hstep, r, Step.refers_of_refers_retain hrefers, hplace⟩

end Sample

/-- The report that tells two samples apart: one before and one after a projection. -/
def Report.between (s t : Sample) : Report :=
  { stepsKept := t.steps.length
    stepsDropped := s.steps.length - t.steps.length
    payloadsLive := occupied t.payloads
    payloadsTruncated := occupied s.payloads - occupied t.payloads
    bytesReleased := s.payloadBytes - t.payloadBytes }

namespace Sample

/-- Between a sample and its view the report counts what the projection counts on its way: the
steps that it passes over and the payloads that it looks at. -/
theorem between_view (s : Sample) (actors : ActorFilter) (fields : FieldFilter) :
    Report.between s (s.view actors fields) =
      { stepsKept := (s.view actors fields).steps.length
        stepsDropped := s.steps.countP fun step => !actors.shows step.actor
        payloadsLive := countLive (slotsOf (s.keepsPlace actors fields) s.payloads)
        payloadsTruncated := countTruncated (slotsOf (s.keepsPlace actors fields) s.payloads)
        bytesReleased := bytesReleased (slotsOf (s.keepsPlace actors fields) s.payloads) } := by
  have hhidden : s.steps.length - (s.view actors fields).steps.length =
      s.steps.countP fun step => !actors.shows step.actor :=
    Nat.sub_eq_of_eq_add' (s.steps_length_view_add actors fields).symm
  rw [countLive_eq, countTruncated_eq, bytesReleased_eq, ← hhidden]
  rfl

theorem projectWithReport_eq (s : Sample) (actors : ActorFilter) (fields : FieldFilter) :
    s.projectWithReport actors fields =
      match s.fault? actors with
      | some e => .error e
      | none => .ok (s.view actors fields, .between s (s.view actors fields)) := by
  rw [projectWithReport, checkReferences_eq, visibleSteps_eq, fault?]
  cases s.steps.findSome? (·.dangling? s.payloads.length) with
  | some e => rfl
  | none =>
      cases s.steps.findSome? (·.stranger? actors) with
      | some e => rfl
      | none =>
          rw [between_view]
          rfl

theorem projectWithReport_eq_ok {s t : Sample} {actors : ActorFilter} {fields : FieldFilter}
    {r : Report} :
    s.projectWithReport actors fields = .ok (t, r) ↔
      s.fault? actors = none ∧ s.view actors fields = t ∧ .between s t = r := by
  rw [projectWithReport_eq]
  cases s.fault? actors with
  | some e => simp
  | none =>
      simp only [Except.ok.injEq, Prod.mk.injEq, true_and]
      refine and_congr_right fun hview => ?_
      rw [hview]

theorem project_eq (s : Sample) (actors : ActorFilter) (fields : FieldFilter) :
    s.project actors fields =
      match s.fault? actors with
      | some e => .error e
      | none => .ok (s.view actors fields) := by
  rw [project, projectWithReport_eq]
  cases s.fault? actors <;> rfl

theorem project_eq_ok {s t : Sample} {actors : ActorFilter} {fields : FieldFilter} :
    s.project actors fields = .ok t ↔ s.fault? actors = none ∧ s.view actors fields = t := by
  rw [project_eq]
  cases s.fault? actors <;> simp

end Sample

end TrialView
