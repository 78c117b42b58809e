import TrialView.Proofs.Projection.Shown

/-!
What the report of a projection says about the samples before and after it. The counts balance: what
is kept and what is dropped, live or truncated, left or released adds up to what there was. The flag
for an identity looks at dropped steps and truncated payloads only. So it tells that a projection
did nothing but clear fields; whether those fields held anything it does not tell.
-/

namespace TrialView

open Projection

/-- The counts of a report agree with a sample and its projection. -/
structure Report.Balances (r : Report) (s t : Sample) : Prop where
  stepsKept : r.stepsKept = t.steps.length
  steps : r.stepsKept + r.stepsDropped = s.steps.length
  payloadsLive : r.payloadsLive = occupied t.payloads
  payloads : r.payloadsLive + r.payloadsTruncated = occupied s.payloads
  bytes : r.bytesReleased + t.payloadBytes = s.payloadBytes
  truncated_le : r.payloadsTruncated ≤ r.bytesReleased
  untruncated : r.payloadsTruncated = 0 ↔ t.payloads = s.payloads

theorem Report.isIdentity_iff {r : Report} :
    r.isIdentity = true ↔ r.stepsDropped = 0 ∧ r.payloadsTruncated = 0 := by
  simp [isIdentity]

namespace Sample

variable {s t : Sample} {actors : ActorFilter} {fields : FieldFilter} {r : Report}

theorem balances_between_view :
    (Report.between s (s.view actors fields)).Balances s (s.view actors fields) := by
  have hcount := countLive_add_countTruncated (slotsOf (s.keepsPlace actors fields) s.payloads)
  have hbytes := bytesReleased_add (slotsOf (s.keepsPlace actors fields) s.payloads)
  have hzero := countTruncated_eq_zero_iff (slotsOf (s.keepsPlace actors fields) s.payloads)
  rw [slotsOf_fst] at hcount hbytes hzero
  rw [between_view]
  exact
    { stepsKept := rfl
      steps := s.steps_length_view_add actors fields
      payloadsLive := countLive_eq _
      payloads := hcount
      bytes := hbytes
      truncated_le := countTruncated_le_bytesReleased _
      untruncated := hzero }

/-- The report of a projection balances: the steps kept are those of the projection and with the
steps dropped those of the sample, and likewise for the payloads that are not empty and for the
bytes; nothing is truncated exactly when the table stays as it was. -/
theorem balances_of_projectWithReport (h : s.projectWithReport actors fields = .ok (t, r)) :
    r.Balances s t := by
  obtain ⟨_, rfl, rfl⟩ := projectWithReport_eq_ok.mp h
  exact balances_between_view

/-- Of four payloads one stays and is counted, one stays empty, one is emptied and one was empty
without a reference to it. -/
theorem sparse_report_balances :
    let s : Sample := { shared with payloads := [[1], [2, 5], [], []] }
    let t : Sample := { shared with steps := shared.steps.drop 1, payloads := [[1], [], [], []] }
    let r : Report := ⟨1, 1, 1, 1, 2⟩
    s.projectWithReport (.restricted ⟨[false, true]⟩) .unrestricted = .ok (t, r) ∧
    r.Balances s t := by
  intro s t r
  have hproject :
      s.projectWithReport (.restricted ⟨[false, true]⟩) .unrestricted = .ok (t, r) := rfl
  exact ⟨hproject, balances_of_projectWithReport hproject⟩

theorem steps_length_view_iff :
    (s.view actors fields).steps.length = s.steps.length ↔
      (s.view actors fields).steps = s.steps.map (Step.retain fields) := by
  constructor
  · intro hlength
    simp only [view, shownSteps, List.length_map, List.length_filter_eq_length_iff] at hlength
    rw [view, shownSteps, List.filter_eq_self.mpr hlength]
  · intro hsteps
    rw [hsteps, List.length_map]

/-- The flag is set exactly when all that was done is that fields were cleared. -/
theorem isIdentity_iff_cleared (h : s.projectWithReport actors fields = .ok (t, r)) :
    r.isIdentity = true ↔ t = { s with steps := s.steps.map (Step.retain fields) } := by
  obtain ⟨_, rfl, rfl⟩ := projectWithReport_eq_ok.mp h
  have hbalances : (Report.between s (s.view actors fields)).Balances s (s.view actors fields) :=
    balances_between_view
  have hdropped : (Report.between s (s.view actors fields)).stepsDropped = 0 ↔
      (s.view actors fields).steps = s.steps.map (Step.retain fields) := by
    -- The steps dropped are what the view lacks in length, and a view of full length drops none.
    have hsteps := hbalances.steps
    rw [hbalances.stepsKept] at hsteps
    rw [← steps_length_view_iff]
    omega
  rw [Report.isIdentity_iff, hdropped, hbalances.untruncated]
  constructor
  · rintro ⟨hsteps, hpayloads⟩
    rw [view, Sample.mk.injEq]
    exact ⟨rfl, rfl, rfl, rfl, hsteps, hpayloads⟩
  · intro hview
    rw [hview]
    exact ⟨rfl, rfl⟩

theorem map_retain_eq_self_iff :
    s.steps.map (Step.retain fields) = s.steps ↔
      ∀ step ∈ s.steps, ∀ f : Field, fields.includes f = false → step.content f = f.absent := by
  calc
    s.steps.map (Step.retain fields) = s.steps
      ↔ s.steps.map (Step.retain fields) = s.steps.map id := by rw [List.map_id]
    _ ↔ ∀ step ∈ s.steps, step.retain fields = step := List.map_inj_left
    _ ↔ _ := forall₂_congr fun _ _ => Step.retain_eq_self_iff

/-- A view is its sample when it does nothing but clear fields and these hold nothing. -/
theorem view_eq_self_iff :
    s.view actors fields = s ↔
      s.view actors fields = { s with steps := s.steps.map (Step.retain fields) } ∧
      s.steps.map (Step.retain fields) = s.steps := by
  constructor
  · intro hview
    have hsteps : s.steps = s.steps.map (Step.retain fields) := by
      have hretained := steps_length_view_iff.mp (congrArg (·.steps.length) hview)
      rwa [hview] at hretained
    refine ⟨?_, hsteps.symm⟩
    rw [← hsteps]
    exact hview
  · rintro ⟨hview, hsteps⟩
    rw [hview, hsteps]

/-- The flag for an identity is set exactly when the projection is the sample with the excluded
fields of its steps cleared: every step is kept and the payload table is as it was. The projection
is the sample itself exactly when, beside that, the excluded fields hold nothing. -/
theorem isIdentity_iff_only_clears (h : s.projectWithReport actors fields = .ok (t, r)) :
    (r.isIdentity = true ↔ t = { s with steps := s.steps.map (Step.retain fields) }) ∧
    (t = s ↔ r.isIdentity = true ∧
      ∀ step ∈ s.steps, ∀ f : Field, fields.includes f = false → step.content f = f.absent) := by
  refine ⟨isIdentity_iff_cleared h, ?_⟩
  rw [isIdentity_iff_cleared h, ← map_retain_eq_self_iff]
  obtain ⟨_, rfl, _⟩ := projectWithReport_eq_ok.mp h
  exact view_eq_self_iff

/-- Nothing is dropped or truncated, and an excluded message stays out; its payload is referred to
from an observation as well. -/
theorem shared_isIdentity :
    let fields := FieldFilter.ofFields [.observation, .action]
    let s : Sample :=
      { shared with
        steps := [{ Step.blank with observation := some 0, sentMessages := [⟨.environment, 0⟩] }]
        payloads := [[1]] }
    let t : Sample := { s with steps := [{ Step.blank with observation := some 0 }] }
    let r : Report := ⟨1, 0, 1, 0, 0⟩
    s.projectWithReport .unrestricted fields = .ok (t, r) ∧
    r.isIdentity = true ∧ t = { s with steps := s.steps.map (Step.retain fields) } := by
  intro fields s t r
  have hproject : s.projectWithReport .unrestricted fields = .ok (t, r) := rfl
  obtain ⟨hflag, _⟩ := isIdentity_iff_only_clears hproject
  exact ⟨hproject, rfl, hflag.mp rfl⟩

/-- A sample whose one step holds nothing but a reward. -/
def rewarded : Sample :=
  { Sample.blank with steps := [{ Step.blank with reward := some (.ofInt 1) }] }

/-- The reward is lost, and the report of that is an identity. -/
theorem rewarded_isIdentity :
    ∃ t r, rewarded.projectWithReport .unrestricted (.ofFields [.observation]) = .ok (t, r) ∧
      r.isIdentity = true ∧ t ≠ rewarded := by
  refine ⟨{ rewarded with steps := [Step.blank] }, ⟨1, 0, 0, 0, 0⟩, rfl, rfl, ?_⟩
  decide

end Sample

end TrialView
