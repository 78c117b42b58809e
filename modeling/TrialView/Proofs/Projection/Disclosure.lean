import TrialView.Proofs.Projection.Shown

/-!
What a projection lets a viewer learn. Two samples are alike behind a pair of filters when they
agree on all that the filters show: identity and times, the included steps with their included
fields, the size of the payload table, and the payloads that the included fields refer to. As soon
as some filter restricts, projections are the same exactly when the samples are alike. So hidden
steps, excluded fields and all other payloads can differ in any way without changing a projection,
and nothing that the filters show is lost.
-/

namespace TrialView

open Projection

/-- Two steps of one actor agree in every field that the filter includes. -/
def Step.Alike (fields : FieldFilter) (s t : Step) : Prop :=
  s.actor = t.actor ∧ ∀ f : Field, fields.includes f = true → s.content f = t.content f

theorem Step.alike_iff {fields : FieldFilter} {s t : Step} :
    s.Alike fields t ↔ s.retain fields = t.retain fields := by
  constructor
  · rintro ⟨hactor, hcontent⟩
    apply ext_content
    · rw [retain_actor, retain_actor, hactor]
    · intro f
      rw [retain_content, retain_content]
      split
      · next hincluded => exact hcontent f hincluded
      · rfl
  · intro h
    constructor
    · have hactor := congrArg actor h
      rwa [retain_actor, retain_actor] at hactor
    · intro f hincluded
      have hretained := congrArg (fun step => step.content f) h
      simpa only [retain_content, hincluded, if_true] using hretained

namespace Sample

/-- Two samples agree on everything that both filters show. -/
structure Alike (actors : ActorFilter) (fields : FieldFilter) (s t : Sample) : Prop where
  userId : s.userId = t.userId
  trialId : s.trialId = t.trialId
  tick : s.tick = t.tick
  timestamp : s.timestamp = t.timestamp
  tableSize : s.payloads.length = t.payloads.length
  steps : List.Forall₂ (Step.Alike fields)
    (s.steps.filter fun step => actors.shows step.actor)
    (t.steps.filter fun step => actors.shows step.actor)
  bytes : ∀ r, s.ShowsRef actors fields r → s.payload? r = t.payload? r

variable {s t : Sample} {actors : ActorFilter} {fields : FieldFilter}

theorem forall₂_alike_iff :
    List.Forall₂ (Step.Alike fields)
      (s.steps.filter fun step => actors.shows step.actor)
      (t.steps.filter fun step => actors.shows step.actor) ↔
    s.shownSteps actors fields = t.shownSteps actors fields := by
  have halike : Step.Alike fields =
      fun step other => step.retain fields = other.retain fields := by
    funext step other
    exact propext Step.alike_iff
  rw [halike, shownSteps, shownSteps, ← List.forall₂_eq_eq_eq, List.forall₂_map_left_iff,
    List.forall₂_map_right_iff]

/-- Samples that show the same steps show the same references. -/
theorem showsRef_congr (hsteps : s.shownSteps actors fields = t.shownSteps actors fields)
    (r : UInt32) : s.ShowsRef actors fields r ↔ t.ShowsRef actors fields r := by
  rw [← refers_shownSteps, ← refers_shownSteps, hsteps]

theorem view_eq_of_alike (hrestricted : ¬ (actors = .unrestricted ∧ fields = .unrestricted))
    (h : s.Alike actors fields t) : s.view actors fields = t.view actors fields := by
  have hsteps : s.shownSteps actors fields = t.shownSteps actors fields :=
    forall₂_alike_iff.mp h.steps
  have hkeeps : s.keepsPlace actors fields = t.keepsPlace actors fields := by
    funext place
    rw [keepsPlace, keepsPlace, hsteps]
  have hpayloads : sweep (slotsOf (s.keepsPlace actors fields) s.payloads) =
      sweep (slotsOf (t.keepsPlace actors fields) t.payloads) := by
    rw [← hkeeps]
    apply sweep_congr h.tableSize
    intro place hkept
    rcases keepsPlace_iff.mp hkept with hboth | ⟨r, hshown, rfl⟩
    · exact absurd hboth hrestricted
    · exact h.bytes r hshown
  simp only [view, Sample.mk.injEq]
  exact ⟨h.userId, h.trialId, h.tick, h.timestamp, hsteps, hpayloads⟩

theorem alike_of_view_eq (h : s.view actors fields = t.view actors fields) :
    s.Alike actors fields t := by
  have hparts := h
  simp only [view, Sample.mk.injEq] at hparts
  obtain ⟨huser, htrial, htick, htimestamp, hsteps, htable⟩ := hparts
  have hsize : s.payloads.length = t.payloads.length := by
    have hlength := congrArg List.length htable
    rwa [sweep_length, sweep_length] at hlength
  refine ⟨huser, htrial, htick, htimestamp, hsize, forall₂_alike_iff.mpr hsteps, ?_⟩
  intro r hshown
  calc
    s.payload? r = (s.view actors fields).payload? r := (payload?_view hshown).symm
    _ = (t.view actors fields).payload? r := by rw [h]
    _ = t.payload? r := payload?_view ((showsRef_congr hsteps r).mp hshown)

/-- Two samples that project successfully through filters that restrict something have the same
projection exactly when they are alike. What the filters hide has no part in it. -/
theorem projections_eq_iff_alike {u v : Sample}
    (hrestricted : ¬ (actors = .unrestricted ∧ fields = .unrestricted))
    (hs : s.project actors fields = .ok u) (ht : t.project actors fields = .ok v) :
    u = v ↔ s.Alike actors fields t := by
  obtain ⟨_, rfl⟩ := project_eq_ok.mp hs
  obtain ⟨_, rfl⟩ := project_eq_ok.mp ht
  exact ⟨alike_of_view_eq, view_eq_of_alike hrestricted⟩

/-- The shared sample with other hidden steps, another excluded field and other payloads where only
these refer to them. -/
def reworked : Sample :=
  { shared with
    steps :=
      [ { Step.blank with actor := 0, action := some 3, reward := some Number.Single.zero },
        { Step.blank with
          actor := 1, observation := some 0, action := some 3,
          sentMessages := [⟨.environment, 2⟩] },
        { Step.blank with actor := 0, observation := some 1 } ]
    payloads := [[1], [7, 7], [3], []] }

theorem shared_reworked_project :
    let a := ActorFilter.restricted ⟨[false, true]⟩
    let f := FieldFilter.ofFields [.observation, .sentMessages]
    let t : Sample := { shared with steps := shared.steps.drop 1, payloads := [[1], [], [3], []] }
    ¬ (a = .unrestricted ∧ f = .unrestricted) ∧
    shared.project a f = .ok t ∧
    reworked.project a f = .ok t ∧
    shared.Alike a f reworked := by
  intro a f t
  have hrestricted : ¬ (a = .unrestricted ∧ f = .unrestricted) := by
    simp [a]
  have hshared : shared.project a f = .ok t := rfl
  have hreworked : reworked.project a f = .ok t := rfl
  exact ⟨hrestricted, hshared, hreworked,
    (projections_eq_iff_alike hrestricted hshared hreworked).mp rfl⟩

end Sample

end TrialView
