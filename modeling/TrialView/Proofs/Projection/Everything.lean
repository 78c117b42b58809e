import TrialView.Proofs.Projection.Shown
import TrialView.Scope

/-!
Filters that show everything and yet are restricted: that of all actors of a roster and that of all
fields. A sample whose actors lie in the roster shows the same through them as through the filters
that restrict nothing, and has the same faults. So each of them can take the place of the other as
long as the second filter restricts as well. Where nothing else is restricted they differ in one
thing: payloads that no step refers to are emptied.
-/

namespace TrialView

namespace ActorFilter

/-- The restricted filter over a roster of some size that shows all its actors. -/
def everyone (rosterSize : Nat) : ActorFilter := .restricted ⟨List.replicate rosterSize true⟩

theorem includes_everyone {rosterSize : Nat} {actor : UInt32} (h : actor.toNat < rosterSize) :
    (everyone rosterSize).includes actor = .ok true := by
  simp [everyone, includes, ActorSet.get?, h]

theorem shows_everyone {rosterSize : Nat} {actor : UInt32} (h : actor.toNat < rosterSize) :
    (everyone rosterSize).shows actor = true := by
  rw [shows, includes_everyone h]

end ActorFilter

namespace FieldFilter

/-- The restricted filter of all seven fields. -/
def every : FieldFilter := .restricted (.ofList Field.all)

theorem includes_every (f : Field) : every.includes f = true := by
  cases f <;> rfl

end FieldFilter

namespace Step

/-- To go through all seven fields loses nothing of a step. -/
theorem retain_every (s : Step) : s.retain .every = s := by
  apply retain_eq_self_iff.mpr
  intro f hexcluded
  rw [FieldFilter.includes_every f] at hexcluded
  contradiction

end Step

namespace Projection

/-- Some step refers to a place of the payload table. -/
def Referred (steps : List Step) (place : Nat) : Prop :=
  ∃ step ∈ steps, ∃ r, step.Refers r ∧ r.toNat = place

instance (steps : List Step) (place : Nat) : Decidable (Referred steps place) :=
  decidable_of_iff (isLive steps place = true) isLive_iff

end Projection

open Projection

namespace Sample

/-- A sample with the payloads emptied that no step of a list refers to. -/
def withoutOrphans (steps : List Step) (t : Sample) : Sample :=
  { t with payloads := t.payloads.mapIdx fun place p => if Referred steps place then p else [] }

variable {s : Sample} {rosterSize : Nat} {a b : ActorFilter} {f g : FieldFilter}

theorem fault?_everyone (h : ∀ step ∈ s.steps, step.actor.toNat < rosterSize) :
    s.fault? (.everyone rosterSize) = s.fault? .unrestricted := by
  have hknown : s.steps.findSome? (·.stranger? (.everyone rosterSize)) = none := by
    rw [List.findSome?_eq_none_iff]
    intro step hstep
    exact Step.stranger?_eq_none_iff.mpr ⟨true, ActorFilter.includes_everyone (h step hstep)⟩
  rw [fault?, fault?, hknown, Step.findSome?_stranger?_unrestricted]

theorem shownSteps_everyone (h : ∀ step ∈ s.steps, step.actor.toNat < rosterSize)
    (f : FieldFilter) : s.shownSteps (.everyone rosterSize) f = s.shownSteps .unrestricted f := by
  rw [shownSteps_unrestricted]
  apply shownSteps_of_shows
  intro step hstep
  exact ActorFilter.shows_everyone (h step hstep)

/-- The filter of all fields takes the way through the fields, and the one that restricts nothing
goes past it. -/
theorem shownSteps_every (s : Sample) (a : ActorFilter) :
    s.shownSteps a .every = s.shownSteps a .unrestricted := by
  have hretain : Step.retain .every = Step.retain .unrestricted := funext Step.retain_every
  rw [shownSteps, hretain, shownSteps]

theorem shownSteps_nothing_restricted (s : Sample) :
    s.shownSteps .unrestricted .unrestricted = s.steps := by
  rw [shownSteps_unrestricted]
  exact List.map_id s.steps

/-- A projection depends on its filters by the faults, by the steps that they show and by whether
one of them restricts. -/
theorem project_congr (hfault : s.fault? a = s.fault? b)
    (hsteps : s.shownSteps a f = s.shownSteps b g)
    (hrestricts : (a.isUnrestricted && f.isUnrestricted) =
      (b.isUnrestricted && g.isUnrestricted)) :
    s.project a f = s.project b g := by
  have hkeeps : s.keepsPlace a f = s.keepsPlace b g := by
    funext place
    rw [keepsPlace, keepsPlace, hsteps, hrestricts]
  rw [project_eq, project_eq, hfault, view, view, hkeeps, hsteps]

theorem view_nothing_restricted (s : Sample) : s.view .unrestricted .unrestricted = s := by
  have htable : sweep (slotsOf (s.keepsPlace .unrestricted .unrestricted) s.payloads) =
      s.payloads := by
    apply sweep_eq rfl
    · intro place _
      rfl
    · intro place _ hdrop
      cases hdrop
  rw [view, htable, shownSteps_nothing_restricted]

/-- A table in which live payloads stay has lost those that no step refers to. -/
theorem sweep_isLive (steps : List Step) (payloads : List (List UInt8)) :
    sweep (slotsOf (isLive steps) payloads) =
      payloads.mapIdx fun place p => if Referred steps place then p else [] := by
  apply List.ext_getElem?
  intro place
  have hkeep (p : List UInt8) : (if isLive steps place then p else []) =
      if Referred steps place then p else [] := if_congr isLive_iff rfl rfl
  simp only [sweep_getElem?, List.getElem?_mapIdx, hkeep]

/-- Filters that show all steps in full and restrict all the same reclaim what nothing refers to. -/
theorem project_eq_withoutOrphans (hfault : s.fault? a = s.fault? .unrestricted)
    (hsteps : s.shownSteps a f = s.steps)
    (hrestricts : (a.isUnrestricted && f.isUnrestricted) = false) :
    s.project a f = withoutOrphans s.steps <$> s.project .unrestricted .unrestricted := by
  have hkeeps : s.keepsPlace a f = isLive s.steps := by
    funext place
    rw [keepsPlace, hsteps, hrestricts, Bool.false_or]
  have hview : s.view a f = s.withoutOrphans s.steps := by
    rw [view, hkeeps, hsteps, sweep_isLive]
    rfl
  rw [project_eq, project_eq, hfault, hview, view_nothing_restricted]
  cases s.fault? .unrestricted <;> rfl

/-- The filters that show everything and those that restrict nothing are the same to a sample whose
actors lie in the roster, well-formed or not, as long as the other filter restricts. Where it does
not, exactly the payloads are emptied that no step of the sample refers to. -/
theorem project_showing_everything (h : ∀ step ∈ s.steps, step.actor.toNat < rosterSize) :
    (∀ set, s.project (.everyone rosterSize) (.restricted set) =
      s.project .unrestricted (.restricted set)) ∧
    (∀ set, s.project (.restricted set) .every = s.project (.restricted set) .unrestricted) ∧
    ∀ scope ∈ [Scope.mk (.everyone rosterSize) .unrestricted, Scope.mk .unrestricted .every,
        Scope.mk (.everyone rosterSize) .every],
      scope.project s = withoutOrphans s.steps <$> Scope.unrestricted.project s := by
  refine ⟨?_, ?_, ?_⟩
  · intro set
    exact project_congr (fault?_everyone h) (shownSteps_everyone h _) rfl
  · intro set
    exact project_congr rfl (s.shownSteps_every _) rfl
  · intro scope hscope
    simp only [List.mem_cons, List.not_mem_nil, or_false] at hscope
    rcases hscope with rfl | rfl | rfl
    · apply project_eq_withoutOrphans (fault?_everyone h) _ rfl
      rw [shownSteps_everyone h, shownSteps_nothing_restricted]
    · apply project_eq_withoutOrphans rfl _ rfl
      rw [shownSteps_every, shownSteps_nothing_restricted]
    · apply project_eq_withoutOrphans (fault?_everyone h) _ rfl
      rw [shownSteps_every, shownSteps_everyone h, shownSteps_nothing_restricted]

/-- Nothing refers to the last payload; with a shorter table the message is a fault. -/
theorem shared_project_everything :
    let scope := Scope.mk (.everyone 2) .every
    let short : Sample := { shared with payloads := [[1], [2]] }
    (∀ step ∈ shared.steps, step.actor.toNat < 2) ∧
    scope.project shared = .ok { shared with payloads := [[1], [2], [3], []] } ∧
    (∀ step ∈ short.steps, step.actor.toNat < 2) ∧
    scope.project short = .error (.payloadOutOfRange 1 2 2) := by
  intro scope short
  have hactors : ∀ step ∈ shared.steps, step.actor.toNat < 2 := by decide
  have hmember : scope ∈ [Scope.mk (.everyone 2) .unrestricted, Scope.mk .unrestricted .every,
      Scope.mk (.everyone 2) .every] := by
    simp [scope]
  have hshared := (@project_showing_everything shared 2 hactors).2.2 scope hmember
  have hshort := (@project_showing_everything short 2 hactors).2.2 scope hmember
  exact ⟨hactors, hshared.trans rfl, hactors, hshort.trans rfl⟩

end Sample

end TrialView
