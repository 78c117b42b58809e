import TrialView.Proofs.Projection.View
import Mathlib.Data.List.Forall2

/-!
What a projection shows, said without saying how it is found. The statement looks at the sample and
at its projection step by step, field by field and place by place. It fixes the projection: no other
sample is what the filters show of the given one. A sample can be projected exactly when its
references lie in its table and its actors are known.
-/

namespace TrialView

open Projection

/-- One step is shown as another: by the same actor, and with each field as it is when the filter
includes it and absent when it does not. -/
def Step.ShownAs (fields : FieldFilter) (s t : Step) : Prop :=
  t.actor = s.actor ∧
    ∀ f : Field, t.content f = if fields.includes f then s.content f else f.absent

theorem Step.shownAs_iff {fields : FieldFilter} {s t : Step} :
    s.ShownAs fields t ↔ s.retain fields = t := by
  constructor
  · rintro ⟨hactor, hcontent⟩
    apply ext_content
    · rw [retain_actor, hactor]
    · intro f
      rw [retain_content, hcontent f]
  · rintro rfl
    exact ⟨retain_actor fields s, s.retain_content fields⟩

namespace Sample

/-- An included field of a step whose actor is included refers to a payload. -/
def ShowsRef (s : Sample) (actors : ActorFilter) (fields : FieldFilter) (r : UInt32) : Prop :=
  ∃ step ∈ s.steps, actors.shows step.actor = true ∧
    ∃ f : Field, fields.includes f = true ∧ f.Refers (step.content f) r

/-- The payload at a place has to stay. -/
def KeepsPlace (s : Sample) (actors : ActorFilter) (fields : FieldFilter) (place : Nat) : Prop :=
  (actors = .unrestricted ∧ fields = .unrestricted) ∨
    ∃ r, s.ShowsRef actors fields r ∧ r.toNat = place

/-- All references lie in the payload table and the filter knows all actors. -/
structure Projectable (s : Sample) (actors : ActorFilter) : Prop where
  inTable : ∀ step ∈ s.steps, ∀ r, step.Refers r → r.toNat < s.payloads.length
  known : ∀ step ∈ s.steps, ∃ visible, actors.includes step.actor = .ok visible

/-- One sample is what both filters show of another. -/
structure ShownAs (actors : ActorFilter) (fields : FieldFilter) (s t : Sample) : Prop where
  userId : t.userId = s.userId
  trialId : t.trialId = s.trialId
  tick : t.tick = s.tick
  timestamp : t.timestamp = s.timestamp
  steps : List.Forall₂ (Step.ShownAs fields)
    (s.steps.filter fun step => actors.shows step.actor) t.steps
  tableSize : t.payloads.length = s.payloads.length
  kept : ∀ place, s.KeepsPlace actors fields place → t.payloads[place]? = s.payloads[place]?
  emptied : ∀ place < s.payloads.length,
    ¬ s.KeepsPlace actors fields place → t.payloads[place]? = some []
  resolves : ∀ step ∈ t.steps, ∀ r, step.Refers r →
    ∃ bytes, t.payload? r = some bytes ∧ s.payload? r = some bytes

variable {s t : Sample} {actors : ActorFilter} {fields : FieldFilter}

theorem fault?_eq_none_iff :
    s.fault? actors = none ↔ s.Projectable actors := by
  simp only [fault?, Option.or_eq_none_iff, List.findSome?_eq_none_iff,
    Step.dangling?_eq_none_iff, Step.stranger?_eq_none_iff]
  exact ⟨fun h => ⟨h.1, h.2⟩, fun h => ⟨h.inTable, h.known⟩⟩

/-- The references that the shown steps still hold are the references shown. -/
theorem refers_shownSteps {r : UInt32} :
    (∃ step ∈ s.shownSteps actors fields, step.Refers r) ↔ s.ShowsRef actors fields r := by
  constructor
  · rintro ⟨_, hmember, f, hrefers⟩
    obtain ⟨step, hstep, hshown, rfl⟩ := mem_shownSteps.mp hmember
    exact ⟨step, hstep, hshown, f, Step.refers_retain_content.mp hrefers⟩
  · rintro ⟨step, hstep, hshown, f, hrefers⟩
    exact ⟨_, mem_shownSteps.mpr ⟨step, hstep, hshown, rfl⟩, f,
      Step.refers_retain_content.mpr hrefers⟩

theorem keepsPlace_iff {place : Nat} :
    s.keepsPlace actors fields place = true ↔ s.KeepsPlace actors fields place := by
  have hlive : isLive (s.shownSteps actors fields) place = true ↔
      ∃ r, s.ShowsRef actors fields r ∧ r.toNat = place := by
    simp only [isLive_iff, ← refers_shownSteps]
    constructor
    · rintro ⟨step, hstep, r, hrefers, hplace⟩
      exact ⟨r, ⟨step, hstep, hrefers⟩, hplace⟩
    · rintro ⟨r, ⟨step, hstep, hrefers⟩, hplace⟩
      exact ⟨step, hstep, r, hrefers, hplace⟩
  rw [keepsPlace, Bool.or_eq_true, Bool.and_eq_true, ActorFilter.isUnrestricted_iff,
    FieldFilter.isUnrestricted_iff, hlive, KeepsPlace]

theorem payload?_view {r : UInt32} (hshown : s.ShowsRef actors fields r) :
    (s.view actors fields).payload? r = s.payload? r := by
  have hkeeps : s.keepsPlace actors fields r.toNat = true :=
    keepsPlace_iff.mpr (.inr ⟨r, hshown, rfl⟩)
  exact sweep_keep _ _ _ hkeeps

theorem shownAs_view (h : s.Projectable actors) :
    s.ShownAs actors fields (s.view actors fields) where
  userId := rfl
  trialId := rfl
  tick := rfl
  timestamp := rfl
  steps := by
    simp only [view, shownSteps, List.forall₂_map_right_iff, List.forall₂_same]
    intro step _
    exact Step.shownAs_iff.mpr rfl
  tableSize := sweep_length _ _
  kept := by
    intro place hkeeps
    exact sweep_keep _ _ _ (keepsPlace_iff.mpr hkeeps)
  emptied := by
    intro place hplace hkeeps
    rw [← keepsPlace_iff, Bool.not_eq_true] at hkeeps
    exact sweep_drop _ _ _ hplace hkeeps
  resolves := by
    intro step hstep r hrefers
    have hshown : s.ShowsRef actors fields r := refers_shownSteps.mp ⟨step, hstep, hrefers⟩
    have hplace : r.toNat < s.payloads.length := by
      obtain ⟨source, hsource, _, f, _, hheld⟩ := hshown
      exact h.inTable source hsource r ⟨f, hheld⟩
    have hbytes : s.payload? r = some s.payloads[r.toNat] := List.getElem?_eq_getElem hplace
    exact ⟨_, (payload?_view hshown).trans hbytes, hbytes⟩

/-- What is shown leaves no choice. -/
theorem ShownAs.eq_view (h : s.ShownAs actors fields t) : s.view actors fields = t := by
  have hsteps : s.shownSteps actors fields = t.steps := by
    have hretained : List.Forall₂ (fun step shown => step.retain fields = shown)
        (s.steps.filter fun step => actors.shows step.actor) t.steps :=
      h.steps.imp fun _ _ hstep => Step.shownAs_iff.mp hstep
    rw [← List.forall₂_map_left_iff, List.forall₂_eq_eq_eq] at hretained
    exact hretained
  have hpayloads : sweep (slotsOf (s.keepsPlace actors fields) s.payloads) = t.payloads := by
    apply sweep_eq h.tableSize
    · intro place hkeeps
      exact h.kept place (keepsPlace_iff.mp hkeeps)
    · intro place hplace hkeeps
      apply h.emptied place hplace
      rw [← keepsPlace_iff, hkeeps]
      exact Bool.false_ne_true
  obtain ⟨userId, trialId, tick, timestamp, steps, payloads⟩ := t
  simp only [view, Sample.mk.injEq]
  exact ⟨h.userId.symm, h.trialId.symm, h.tick.symm, h.timestamp.symm, hsteps, hpayloads⟩

/-- A projection succeeds exactly on a sample without faults, and then gives exactly what both
filters show of it: the same identity and times, the included steps in order with the included
fields, and a table of the same length in which every reference left resolves to the bytes that it
resolved to before and no other payload is left, unless nothing is restricted. -/
theorem project_eq_ok_iff_shownAs :
    s.project actors fields = .ok t ↔ s.Projectable actors ∧ s.ShownAs actors fields t := by
  rw [project_eq_ok, fault?_eq_none_iff]
  constructor
  · rintro ⟨hprojectable, rfl⟩
    exact ⟨hprojectable, shownAs_view hprojectable⟩
  · rintro ⟨hprojectable, hshown⟩
    exact ⟨hprojectable, hshown.eq_view⟩

/-- Two actors saw the first payload, and nobody refers to the last. -/
def shared : Sample :=
  { userId := "user"
    trialId := "trial"
    tick := 3
    timestamp := 0
    steps :=
      [ { Step.blank with actor := 0, observation := some 0, action := some 1 },
        { Step.blank with actor := 1, observation := some 0, sentMessages := [⟨.environment, 2⟩] } ]
    payloads := [[1], [2], [3], [4]] }

example : shared.project (.restricted ⟨[false, true]⟩) .unrestricted =
    .ok { shared with steps := shared.steps.drop 1, payloads := [[1], [], [3], []] } := rfl

end Sample

end TrialView
