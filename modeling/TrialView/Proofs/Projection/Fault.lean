import TrialView.Proofs.First
import TrialView.Proofs.Projection.Shown

/-!
Why a sample cannot be projected. A reference beyond the payload table is told before an actor that
is not in the roster, wherever the two stand. Of several faults of one kind the first is told: the
first step that has one and, for references, the first field of that step in the order of the fields
and the first such reference in it. All steps and all fields count, those too that would not be
shown, so the field filter has no say in whether or how a projection fails.
-/

namespace TrialView

open Projection

namespace Field

/-- The references in a content, in its own order. -/
def refs : (f : Field) → f.Content → List UInt32
  | .observation, content | .action, content => content.toList
  | .reward, _ => []
  | .receivedRewards, rewards | .sentRewards, rewards => rewards.filterMap (·.userData)
  | .receivedMessages, messages | .sentMessages, messages => messages.map (·.payload)

theorem mem_refs {f : Field} {content : f.Content} {r : UInt32} :
    r ∈ f.refs content ↔ f.Refers content r := by
  cases f <;> simp [refs, Refers]

end Field

namespace Step

/-- A step holds a reference beyond a payload table. -/
def HoldsBeyond (size : Nat) (s : Step) : Prop := ∃ r, s.Refers r ∧ size ≤ r.toNat

/-- The first reference of a step beyond a payload table: no earlier field holds one, and no earlier
reference of its own field is one. -/
def FirstBeyond (size : Nat) (s : Step) (r : UInt32) : Prop :=
  ∃ f : Field,
    IsFirst (fun f => ∃ q, f.Refers (s.content f) q ∧ size ≤ q.toNat) Field.all f ∧
    IsFirst (fun q => size ≤ q.toNat) (f.refs (s.content f)) r

theorem payloadRefs_eq (s : Step) :
    s.payloadRefs = Field.all.flatMap fun f => f.refs (s.content f) := by
  simp [payloadRefs, Field.all, Field.refs, content]

theorem find?_payloadRefs_eq_some_iff {size : Nat} {s : Step} {r : UInt32} :
    s.payloadRefs.find? (fun q => size ≤ q.toNat) = some r ↔ s.FirstBeyond size r := by
  -- The references are searched field by field, so the first hit lies in the first field with one.
  rw [payloadRefs_eq, List.find?_flatMap, FirstBeyond]
  rw [findSome?_eq_some_iff_isFirst
    (p := fun f : Field => ∃ q, f.Refers (s.content f) q ∧ size ≤ q.toNat)]
  · simp only [find?_eq_some_iff_isFirst]
  · intro f
    simp [Field.mem_refs]

theorem holdsBeyond_iff {size : Nat} {s : Step} :
    s.HoldsBeyond size ↔ s.dangling? size ≠ none := by
  rw [Ne, dangling?_eq_none_iff]
  simp [HoldsBeyond]

theorem dangling?_eq_some_iff {size : Nat} {s : Step} {e : ProjectionError} :
    s.dangling? size = some e ↔
      ∃ r, s.FirstBeyond size r ∧ .payloadOutOfRange s.actor r size = e := by
  simp only [dangling?, Option.map_eq_some_iff, find?_payloadRefs_eq_some_iff]

end Step

namespace Sample

/-- What a sample that cannot be projected through an actor filter fails with. -/
inductive FailsWith (s : Sample) (actors : ActorFilter) : ProjectionError → Prop
  /-- Some step holds a reference beyond the table; the first one does, and this is its first. -/
  | payloadOutOfRange (step : Step) (r : UInt32)
      (hstep : IsFirst (Step.HoldsBeyond s.payloads.length) s.steps step)
      (href : step.FirstBeyond s.payloads.length r) :
      FailsWith s actors (.payloadOutOfRange step.actor r s.payloads.length)
  /-- No step does, and this is the first whose actor is not in the roster of the filter. -/
  | unknownActor (set : ActorSet) (step : Step)
      (hactors : actors = .restricted set)
      (hrefs : ∀ step ∈ s.steps, ¬ step.HoldsBeyond s.payloads.length)
      (hstep : IsFirst (fun step => set.rosterSize ≤ step.actor.toNat) s.steps step) :
      FailsWith s actors (.unknownActor step.actor set.rosterSize)

variable {s : Sample} {actors : ActorFilter}

theorem findSome?_dangling?_eq_some_iff {e : ProjectionError} :
    s.steps.findSome? (·.dangling? s.payloads.length) = some e ↔
      ∃ step r, IsFirst (Step.HoldsBeyond s.payloads.length) s.steps step ∧
        step.FirstBeyond s.payloads.length r ∧
        .payloadOutOfRange step.actor r s.payloads.length = e := by
  rw [findSome?_eq_some_iff_isFirst fun _ => Step.holdsBeyond_iff]
  simp only [Step.dangling?_eq_some_iff, ← exists_and_left]

theorem findSome?_stranger?_eq_some_iff {steps : List Step} {set : ActorSet}
    {e : ProjectionError} :
    steps.findSome? (·.stranger? (.restricted set)) = some e ↔
      ∃ step, IsFirst (fun step => set.rosterSize ≤ step.actor.toNat) steps step ∧
        .unknownActor step.actor set.rosterSize = e := by
  rw [findSome?_eq_some_iff_isFirst (p := fun step => set.rosterSize ≤ step.actor.toNat)]
  · constructor
    · rintro ⟨step, hfirst, herror⟩
      have hbeyond : set.rosterSize ≤ step.actor.toNat := hfirst.holds
      rw [Step.stranger?_restricted, if_neg (by omega)] at herror
      exact ⟨step, hfirst, Option.some.inj herror⟩
    · rintro ⟨step, hfirst, rfl⟩
      have hbeyond : set.rosterSize ≤ step.actor.toNat := hfirst.holds
      exact ⟨step, hfirst, by rw [Step.stranger?_restricted, if_neg (by omega)]⟩
  · intro step
    simp [Step.stranger?_restricted]

theorem fault?_eq_some_iff {e : ProjectionError} :
    s.fault? actors = some e ↔ s.FailsWith actors e := by
  rw [fault?, Option.or_eq_some_iff]
  constructor
  · rintro (hdangling | ⟨hnone, hstranger⟩)
    · obtain ⟨step, r, hstep, href, rfl⟩ := findSome?_dangling?_eq_some_iff.mp hdangling
      exact .payloadOutOfRange step r hstep href
    · -- Only a restricted filter has a roster that an actor can be missing from.
      cases actors with
      | unrestricted => simp at hstranger
      | restricted set =>
          obtain ⟨step, hstep, rfl⟩ := findSome?_stranger?_eq_some_iff.mp hstranger
          refine .unknownActor set step rfl (fun step hmem hbeyond => ?_) hstep
          exact Step.holdsBeyond_iff.mp hbeyond (List.findSome?_eq_none_iff.mp hnone step hmem)
  · intro hfails
    cases hfails with
    | payloadOutOfRange step r hstep href =>
        exact .inl (findSome?_dangling?_eq_some_iff.mpr ⟨step, r, hstep, href, rfl⟩)
    | unknownActor set step hactors hrefs hstep =>
        subst hactors
        refine .inr ⟨?_, findSome?_stranger?_eq_some_iff.mpr ⟨step, hstep, rfl⟩⟩
        rw [List.findSome?_eq_none_iff]
        intro step hmem
        by_contra hsome
        exact hrefs step hmem (Step.holdsBeyond_iff.mpr hsome)

theorem project_eq_error {fields : FieldFilter} {e : ProjectionError} :
    s.project actors fields = .error e ↔ s.fault? actors = some e := by
  rw [project_eq]
  cases s.fault? actors <;> simp

/-- A sample is without faults when its references lie in its table and, if the actor filter is
restricted, its actors lie in the roster. -/
theorem projectable_iff :
    s.Projectable actors ↔
      (∀ step ∈ s.steps, ∀ r, step.Refers r → r.toNat < s.payloads.length) ∧
      ∀ set, actors = .restricted set → ∀ step ∈ s.steps, step.actor.toNat < set.rosterSize := by
  rw [← fault?_eq_none_iff, fault?, Option.or_eq_none_iff]
  simp only [List.findSome?_eq_none_iff, Step.dangling?_eq_none_iff]
  cases actors with
  | unrestricted => simp [Step.stranger?, ActorFilter.includes]
  | restricted set => simp [Step.stranger?_restricted]

/-- A projection fails with exactly the error that the sample and the actor filter call for: of the
first reference beyond the table if there is one in any step, and otherwise of the first actor that
is not in the roster. Without either it succeeds. The field filter has no part in this. -/
theorem project_eq_error_iff_failsWith (s : Sample) (actors : ActorFilter) (fields : FieldFilter) :
    (∀ e, s.project actors fields = .error e ↔ s.FailsWith actors e) ∧
    ((∃ t, s.project actors fields = .ok t) ↔
      (∀ step ∈ s.steps, ∀ r, step.Refers r → r.toNat < s.payloads.length) ∧
      ∀ set, actors = .restricted set → ∀ step ∈ s.steps, step.actor.toNat < set.rosterSize) ∧
    ∀ other e, s.project actors fields = .error e ↔ s.project actors other = .error e := by
  refine ⟨fun e => ?_, ?_, fun other e => ?_⟩
  · rw [project_eq_error, fault?_eq_some_iff]
  · rw [← projectable_iff, ← fault?_eq_none_iff]
    simp [project_eq_ok]
  · rw [project_eq_error, project_eq_error]

/-- The actor of the first step is not in the roster, and the second step is hidden and refers twice
beyond the table in fields that are left out. -/
example :
    let beyond : Step :=
      { Step.blank with actor := 1, action := some 9, sentMessages := [⟨.environment, 8⟩] }
    let s : Sample := { shared with steps := [{ Step.blank with actor := 5 }, beyond] }
    s.project (.restricted ⟨[true, false]⟩) (.ofFields [.observation]) =
      .error (.payloadOutOfRange 1 9 4) := rfl

end Sample

end TrialView
