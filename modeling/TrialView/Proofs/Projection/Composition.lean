import TrialView.Proofs.Projection.Meet
import TrialView.Proofs.Projection.Shown

/-!
Projecting twice. Two passes are one pass through the meets of their filters, with the same result
or the same error, although the second pass finds a table that is already swept and each pass
decides for itself whether anything is restricted. It follows that the order of passes does not
matter and that a second pass through the same filters changes nothing and reports nothing.
-/

namespace TrialView

open Projection

namespace Sample

variable {a b : ActorFilter}

theorem fault?_meet (s : Sample) (hroster : a.SameRoster b) :
    s.fault? (a.meet b) = (s.fault? a).or (s.fault? b) := by
  simp only [fault?, Step.findSome?_stranger?_meet hroster]
  cases s.steps.findSome? (·.dangling? s.payloads.length) <;> simp

/-- A view holds no reference that its sample does not hold. -/
theorem dangling?_view {s : Sample} (f : FieldFilter)
    (hnone : s.steps.findSome? (·.dangling? s.payloads.length) = none) :
    (s.view a f).steps.findSome? (·.dangling? (s.view a f).payloads.length) = none := by
  simp only [List.findSome?_eq_none_iff, Step.dangling?_eq_none_iff, view, sweep_length] at hnone ⊢
  intro _ hshown r hrefers
  obtain ⟨step, hstep, _, rfl⟩ := mem_shownSteps.mp hshown
  exact hnone step hstep r (Step.refers_of_refers_retain hrefers)

/-- Once a filter knows all actors, its view hides none that a second filter does not know. -/
theorem stranger?_view {s : Sample} (f : FieldFilter) (hroster : a.SameRoster b)
    (hnone : s.steps.findSome? (·.stranger? a) = none) :
    (s.view a f).steps.findSome? (·.stranger? b) = s.steps.findSome? (·.stranger? b) := by
  cases a with
  | unrestricted =>
      simp only [view, shownSteps_unrestricted, List.findSome?_map, Function.comp_def,
        Step.stranger?_retain]
  | restricted x =>
      -- A known actor lies in the roster of the first filter, and so in that of the second.
      have hknown : s.steps.findSome? (·.stranger? b) = none := by
        cases b with
        | unrestricted => exact Step.findSome?_stranger?_unrestricted s.steps
        | restricted y =>
            have hsize : x.rosterSize = y.rosterSize := hroster
            simpa only [Step.stranger?_restricted, hsize] using hnone
      rw [hknown]
      rw [List.findSome?_eq_none_iff] at hknown ⊢
      intro _ hshown
      obtain ⟨step, hstep, _, rfl⟩ := mem_shownSteps.mp hshown
      rw [Step.stranger?_retain]
      exact hknown step hstep

theorem fault?_view {s : Sample} (f : FieldFilter) (hroster : a.SameRoster b)
    (hnone : s.fault? a = none) : (s.view a f).fault? b = s.fault? b := by
  simp only [fault?, Option.or_eq_none_iff] at hnone
  obtain ⟨hdangling, hstranger⟩ := hnone
  rw [fault?, dangling?_view f hdangling, stranger?_view f hroster hstranger, fault?, hdangling]

theorem shownSteps_view (s : Sample) (f g : FieldFilter) :
    (s.view a f).shownSteps b g = s.shownSteps (a.meet b) (f.meet g) := by
  have hmeet : (fun step : Step => (a.meet b).shows step.actor) =
      fun step => b.shows step.actor && a.shows step.actor := by
    funext step
    rw [ActorFilter.shows_meet, Bool.and_comm]
  simp only [view, shownSteps, List.filter_map, List.filter_filter, List.map_map, hmeet,
    Function.comp_def, Step.retain_actor, Step.retain_retain]

/-- A payload stays in both passes exactly when it stays in the one. -/
theorem keepsPlace_view (s : Sample) (f g : FieldFilter) (place : Nat) :
    (s.keepsPlace a f place && (s.view a f).keepsPlace b g place) =
      s.keepsPlace (a.meet b) (f.meet g) place := by
  simp only [keepsPlace, ActorFilter.isUnrestricted_meet, FieldFilter.isUnrestricted_meet]
  rw [shownSteps_view]
  cases hsecond : b.isUnrestricted && g.isUnrestricted with
  | true =>
      -- The second pass keeps all that it finds, and the meets are the filters of the first.
      obtain ⟨hactors, hfields⟩ := Bool.and_eq_true_iff.mp hsecond
      obtain rfl := ActorFilter.isUnrestricted_iff.mp hactors
      obtain rfl := FieldFilter.isUnrestricted_iff.mp hfields
      rw [ActorFilter.meet_unrestricted, FieldFilter.meet_unrestricted]
      simp [hactors, hfields]
  | false =>
      -- The second pass keeps what is live after it, which was live after the first as well.
      have hmeet : (a.isUnrestricted && b.isUnrestricted &&
          (f.isUnrestricted && g.isUnrestricted)) = false := by
        calc
          _ = (a.isUnrestricted && f.isUnrestricted &&
              (b.isUnrestricted && g.isUnrestricted)) := by ac_rfl
          _ = false := by rw [hsecond, Bool.and_false]
      rw [hmeet, Bool.false_or]
      cases hlive : isLive (s.shownSteps (a.meet b) (f.meet g)) place with
      | false => exact Bool.and_false _
      | true =>
          rw [← shownSteps_view] at hlive
          have hfirst : isLive (s.shownSteps a f) place = true := isLive_of_isLive_shownSteps hlive
          rw [hfirst, Bool.or_true, Bool.and_true]

theorem view_view (s : Sample) (f g : FieldFilter) :
    (s.view a f).view b g = s.view (a.meet b) (f.meet g) := by
  have hpayloads : sweep (slotsOf ((s.view a f).keepsPlace b g) (s.view a f).payloads) =
      sweep (slotsOf (s.keepsPlace (a.meet b) (f.meet g)) s.payloads) := by
    have hkeeps : (fun place => s.keepsPlace a f place && (s.view a f).keepsPlace b g place) =
        s.keepsPlace (a.meet b) (f.meet g) := funext (keepsPlace_view s f g)
    rw [← hkeeps]
    exact sweep_sweep _ _ _
  rw [view, hpayloads, shownSteps_view]
  rfl

/-- Two passes are one pass through the meets, in their results and in their errors. -/
theorem project_project (s : Sample) (f g : FieldFilter) (hroster : a.SameRoster b) :
    (do let t ← s.project a f; t.project b g) = s.project (a.meet b) (f.meet g) := by
  rw [project_eq s a f, project_eq s (a.meet b), fault?_meet s hroster]
  cases hfault : s.fault? a with
  | some e => rfl
  | none =>
      change (s.view a f).project b g = _
      rw [project_eq, fault?_view f hroster hfault, view_view, Option.none_or]

theorem view_self (s : Sample) (f : FieldFilter) : (s.view a f).view a f = s.view a f := by
  rw [view_view, ActorFilter.meet_self, FieldFilter.meet_self]

/-- Projecting a sample in two passes gives what one pass through the meets of the filters gives:
the same sample, or the same error with the same contents. The order of the passes does not
matter. -/
theorem project_bind_project (s : Sample) (f g : FieldFilter) (hroster : a.SameRoster b) :
    (do let t ← s.project a f; t.project b g) = s.project (a.meet b) (f.meet g) ∧
    (do let t ← s.project b g; t.project a f) = (do let t ← s.project a f; t.project b g) := by
  constructor
  · exact project_project s f g hroster
  · rw [project_project s f g hroster, project_project s g f hroster.symm,
      ActorFilter.meet_comm b a, FieldFilter.meet_comm g f]

/-- The fields of the two passes have nothing in common, so no payload is left. -/
theorem shared_project_twice :
    let a := ActorFilter.restricted ⟨[true, false]⟩
    let b := ActorFilter.restricted ⟨[true, true]⟩
    let f := FieldFilter.ofFields [.observation]
    let g := FieldFilter.ofFields [.action]
    a.SameRoster b ∧
    (do let t ← shared.project a f; t.project b g) = shared.project (a.meet b) (f.meet g) ∧
    (do let t ← shared.project b g; t.project a f) =
      (do let t ← shared.project a f; t.project b g) ∧
    shared.project (a.meet b) (f.meet g) =
      .ok { shared with steps := [Step.blank], payloads := [[], [], [], []] } := by
  intro a b f g
  have hroster : a.SameRoster b := rfl
  obtain ⟨honce, horder⟩ := project_bind_project shared f g hroster
  exact ⟨hroster, honce, horder, rfl⟩

end Sample

namespace Report

/-- Nothing is reported between a sample and itself. -/
theorem between_self (t : Sample) :
    between t t = ⟨t.steps.length, 0, occupied t.payloads, 0, 0⟩ := by
  simp [between]

end Report

namespace Sample

/-- A second projection through the same filters succeeds, gives the same sample and reports that
nothing was dropped, truncated or released, and that as much is kept and live as before. -/
theorem projectWithReport_again {s t : Sample} {a : ActorFilter} {f : FieldFilter} {r : Report}
    (h : s.projectWithReport a f = .ok (t, r)) :
    t.projectWithReport a f = .ok (t,
      { stepsKept := r.stepsKept
        stepsDropped := 0
        payloadsLive := r.payloadsLive
        payloadsTruncated := 0
        bytesReleased := 0 }) := by
  rw [projectWithReport_eq] at h
  cases hfault : s.fault? a with
  | some e => simp [hfault] at h
  | none =>
      simp only [hfault, Except.ok.injEq, Prod.mk.injEq] at h
      obtain ⟨rfl, rfl⟩ := h
      have hagain : (s.view a f).fault? a = none := by
        rw [fault?_view f (ActorFilter.SameRoster.refl a) hfault, hfault]
      rw [projectWithReport_eq, hagain, view_self, Report.between_self]
      rfl

/-- The first projection drops a step and releases two payloads; the second does neither. -/
theorem shared_project_again :
    let a := ActorFilter.restricted ⟨[false, true]⟩
    let t : Sample := { shared with steps := shared.steps.drop 1, payloads := [[1], [], [3], []] }
    shared.projectWithReport a .unrestricted = .ok (t, ⟨1, 1, 2, 2, 2⟩) ∧
    t.projectWithReport a .unrestricted = .ok (t, ⟨1, 0, 2, 0, 0⟩) := by
  intro a t
  have hfirst : shared.projectWithReport a .unrestricted = .ok (t, ⟨1, 1, 2, 2, 2⟩) := rfl
  exact ⟨hfirst, projectWithReport_again hfirst⟩

end Sample

end TrialView
