import TrialView.Proofs.Projection.View

/-!
Two filters of one kind have a meet: it includes what both include, and the filter that restricts
nothing is neutral. The meet of two restricted actor filters is of use only over rosters of one
length, where an actor that is unknown to one of them is unknown to the other.
-/

namespace TrialView

namespace FieldFilter

/-- The filter of the fields that both filters include. It restricts as soon as one of them does,
even when no field is left. -/
def meet : FieldFilter → FieldFilter → FieldFilter
  | .unrestricted, g => g
  | f, .unrestricted => f
  | .restricted s, .restricted t => .restricted (.filter fun f => s.contains f && t.contains f)

theorem includes_meet (f g : FieldFilter) (field : Field) :
    (f.meet g).includes field = (f.includes field && g.includes field) := by
  cases f <;> cases g <;> simp [meet, includes]

theorem meet_unrestricted (f : FieldFilter) : f.meet .unrestricted = f := by
  cases f <;> rfl

theorem isUnrestricted_meet (f g : FieldFilter) :
    (f.meet g).isUnrestricted = (f.isUnrestricted && g.isUnrestricted) := by
  cases f <;> cases g <;> rfl

theorem meet_comm (f g : FieldFilter) : f.meet g = g.meet f := by
  cases f <;> cases g <;> simp [meet, Bool.and_comm]

theorem meet_self (f : FieldFilter) : f.meet f = f := by
  cases f with
  | unrestricted => rfl
  | restricted s =>
      simp only [meet, Bool.and_self, restricted.injEq]
      apply FieldSet.ext_contains
      intro field
      exact FieldSet.contains_filter s.contains field

end FieldFilter

namespace ActorFilter

/-- The filter of the actors that both filters include. -/
def meet : ActorFilter → ActorFilter → ActorFilter
  | .unrestricted, b => b
  | a, .unrestricted => a
  | .restricted s, .restricted t => .restricted ⟨List.zipWith (· && ·) s.visible t.visible⟩

/-- If both filters are restricted, they are so over rosters of one length. -/
def SameRoster : ActorFilter → ActorFilter → Prop
  | .restricted s, .restricted t => s.rosterSize = t.rosterSize
  | _, _ => True

theorem SameRoster.refl (a : ActorFilter) : a.SameRoster a := by
  cases a with
  | unrestricted => trivial
  | restricted s => rfl

theorem SameRoster.symm {a b : ActorFilter} (h : a.SameRoster b) : b.SameRoster a := by
  cases a <;> cases b
  case restricted.restricted s t => exact Eq.symm h
  all_goals trivial

theorem rosterSize_meet {s t : ActorSet} (h : s.rosterSize = t.rosterSize) :
    ActorSet.rosterSize ⟨List.zipWith (· && ·) s.visible t.visible⟩ = s.rosterSize := by
  simp only [ActorSet.rosterSize, List.length_zipWith] at h ⊢
  omega

theorem shows_restricted (s : ActorSet) (actor : UInt32) :
    (restricted s).shows actor = (s.get? actor).getD false := by
  simp only [shows, includes]
  cases s.get? actor <;> rfl

theorem shows_meet (a b : ActorFilter) (actor : UInt32) :
    (a.meet b).shows actor = (a.shows actor && b.shows actor) := by
  cases a with
  | unrestricted => simp [meet]
  | restricted s =>
      cases b with
      | unrestricted => simp [meet]
      | restricted t =>
          simp only [meet, shows_restricted, ActorSet.get?, List.getElem?_zipWith]
          cases s.visible[actor.toNat]? <;> cases t.visible[actor.toNat]? <;> simp

theorem meet_unrestricted (a : ActorFilter) : a.meet .unrestricted = a := by
  cases a <;> rfl

theorem isUnrestricted_meet (a b : ActorFilter) :
    (a.meet b).isUnrestricted = (a.isUnrestricted && b.isUnrestricted) := by
  cases a <;> cases b <;> rfl

theorem meet_comm (a b : ActorFilter) : a.meet b = b.meet a := by
  cases a <;> cases b
  case restricted.restricted s t =>
    simp only [meet, List.zipWith_comm_of_comm Bool.and_comm]
  all_goals rfl

theorem meet_self (a : ActorFilter) : a.meet a = a := by
  cases a <;> simp [meet, List.zipWith_self]

end ActorFilter

namespace Step

theorem retain_retain (f g : FieldFilter) (s : Step) :
    (s.retain f).retain g = s.retain (f.meet g) := by
  apply ext_content
  · simp only [retain_actor]
  · intro field
    simp only [retain_content, FieldFilter.includes_meet]
    cases f.includes field <;> cases g.includes field <;> rfl

/-- What is unknown to the meet is unknown to one of the filters. -/
theorem findSome?_stranger?_meet {a b : ActorFilter} (hroster : a.SameRoster b)
    (steps : List Step) :
    steps.findSome? (·.stranger? (a.meet b)) =
      (steps.findSome? (·.stranger? a)).or (steps.findSome? (·.stranger? b)) := by
  cases a with
  | unrestricted => simp [ActorFilter.meet]
  | restricted s =>
      cases b with
      | unrestricted => simp [ActorFilter.meet]
      | restricted t =>
          have hsize : s.rosterSize = t.rosterSize := hroster
          simp only [ActorFilter.meet, stranger?_restricted, ActorFilter.rosterSize_meet hsize,
            hsize, Option.or_self]

end Step

end TrialView
