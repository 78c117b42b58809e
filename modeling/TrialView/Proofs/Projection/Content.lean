import TrialView.Projection

/-!
A step seen field by field. The fields of a step hold contents of different types, so the type of a
content depends on its field. Said this way a field filter does one thing: each field on its own
keeps its content or loses it. A step refers to a payload when one of its contents does, and every
field but the scalar reward can hold a reference.
-/

namespace TrialView

open Number

namespace Field

/-- What a step can hold in a field. -/
abbrev Content : Field → Type
  | .observation | .action => Option UInt32
  | .reward => Option Single
  | .receivedRewards | .sentRewards => List Reward
  | .receivedMessages | .sentMessages => List Message

/-- The content of a field that is not there. -/
def absent : (f : Field) → f.Content
  | .observation | .action | .reward => none
  | .receivedRewards | .sentRewards | .receivedMessages | .sentMessages => []

/-- A content refers to a payload: it is the reference, one of its rewards has it as user data, or
one of its messages carries it. -/
def Refers : (f : Field) → f.Content → UInt32 → Prop
  | .observation, content, r | .action, content, r => content = some r
  | .reward, _, _ => False
  | .receivedRewards, rewards, r | .sentRewards, rewards, r => ∃ w ∈ rewards, w.userData = some r
  | .receivedMessages, messages, r | .sentMessages, messages, r => ∃ m ∈ messages, m.payload = r

theorem not_refers_absent (f : Field) (r : UInt32) : ¬ f.Refers f.absent r := by
  cases f <;> simp [Refers, absent]

end Field

namespace Step

/-- What a step holds in a field. -/
def content (s : Step) : (f : Field) → f.Content
  | .observation => s.observation
  | .action => s.action
  | .reward => s.reward
  | .receivedRewards => s.receivedRewards
  | .sentRewards => s.sentRewards
  | .receivedMessages => s.receivedMessages
  | .sentMessages => s.sentMessages

/-- A step refers to a payload in some field. -/
def Refers (s : Step) (r : UInt32) : Prop := ∃ f : Field, f.Refers (s.content f) r

/-- Nothing is in a step but its actor and its seven contents. -/
theorem ext_content {s t : Step} (hactor : s.actor = t.actor)
    (hcontent : ∀ f, s.content f = t.content f) : s = t := by
  cases s
  cases t
  simp only [Step.mk.injEq]
  exact ⟨hactor, hcontent .observation, hcontent .action, hcontent .reward,
    hcontent .receivedRewards, hcontent .sentRewards, hcontent .receivedMessages,
    hcontent .sentMessages⟩

/-- The references that are listed for a step are those that its contents hold. -/
theorem mem_payloadRefs {s : Step} {r : UInt32} : r ∈ s.payloadRefs ↔ s.Refers r := by
  simp only [payloadRefs, List.mem_append, Option.mem_toList, List.mem_filterMap, List.mem_map]
  constructor
  · rintro (((((h | h) | h) | h) | h) | h)
    · exact ⟨.observation, h⟩
    · exact ⟨.action, h⟩
    · exact ⟨.receivedRewards, h⟩
    · exact ⟨.sentRewards, h⟩
    · exact ⟨.receivedMessages, h⟩
    · exact ⟨.sentMessages, h⟩
  · rintro ⟨f, h⟩
    cases f with
    | observation => exact .inl (.inl (.inl (.inl (.inl h))))
    | action => exact .inl (.inl (.inl (.inl (.inr h))))
    | reward => exact h.elim
    | receivedRewards => exact .inl (.inl (.inl (.inr h)))
    | sentRewards => exact .inl (.inl (.inr h))
    | receivedMessages => exact .inl (.inr h)
    | sentMessages => exact .inr h

theorem clear_content (fields : FieldFilter) (s : Step) (f : Field) :
    (s.clear fields).content f = if fields.includes f then s.content f else f.absent := by
  cases f <;> rfl

/-- A step that is taken over as it is comes to the same as one that is gone through field by
field: a filter that restricts nothing includes every field. -/
theorem retain_eq_clear (fields : FieldFilter) (s : Step) : s.retain fields = s.clear fields := by
  cases fields with
  | unrestricted =>
      refine ext_content rfl fun f => ?_
      rw [clear_content]
      rfl
  | restricted set => rfl

@[simp] theorem retain_actor (fields : FieldFilter) (s : Step) :
    (s.retain fields).actor = s.actor := by
  rw [retain_eq_clear]
  rfl

theorem retain_content (fields : FieldFilter) (s : Step) (f : Field) :
    (s.retain fields).content f = if fields.includes f then s.content f else f.absent := by
  rw [retain_eq_clear, clear_content]

/-- Clearing fields changes nothing when they hold nothing. -/
theorem retain_eq_self_iff {fields : FieldFilter} {s : Step} :
    s.retain fields = s ↔ ∀ f : Field, fields.includes f = false → s.content f = f.absent := by
  constructor
  · intro hsame f hexcluded
    have hcontent := s.retain_content fields f
    rwa [hsame, hexcluded] at hcontent
  · intro habsent
    refine ext_content (retain_actor fields s) fun f => ?_
    rw [retain_content]
    split
    · rfl
    · next hexcluded => exact (habsent f (Bool.eq_false_iff.mpr hexcluded)).symm

/-- Clearing fields removes the references in them and no others. -/
theorem refers_retain_content {fields : FieldFilter} {s : Step} {f : Field} {r : UInt32} :
    f.Refers ((s.retain fields).content f) r ↔
      fields.includes f = true ∧ f.Refers (s.content f) r := by
  rw [retain_content]
  split
  · next h => simp [h]
  · next h => simp [h, f.not_refers_absent r]

theorem refers_of_refers_retain {fields : FieldFilter} {s : Step} {r : UInt32}
    (h : (s.retain fields).Refers r) : s.Refers r := by
  obtain ⟨f, hf⟩ := h
  exact ⟨f, (refers_retain_content.mp hf).2⟩

end Step

end TrialView
