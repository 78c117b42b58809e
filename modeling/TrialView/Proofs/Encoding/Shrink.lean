import TrialView.Proofs.Encoding.Size
import TrialView.Proofs.Projection.Shown
import TrialView.Sample.Form
import Mathlib.Algebra.Order.BigOperators.Group.List
import Mathlib.Algebra.Order.Group.Nat

/-!
A projection makes the written form of a sample shorter by what it takes away. A trimmed value is
the value itself or is written with fewer bytes in each style and at each depth. A list is trimmed
when items are left out of it and the others are trimmed, a step is trimmed when fields are cleared,
and a payload when it is emptied. It follows that a projected sample is as long as the sample only
if it is the sample, and that every step, field or payload that is lost makes it shorter.
-/

namespace TrialView

open Json Projection

/-- A list as an array. -/
def listJson {α : Type} (toJson : α → Json) (items : List α) : Json := .array (items.map toJson)

/-- How many bytes the items of a list take in its array, each with what stands before it. -/
def itemsSize {α : Type} (toJson : α → Json) (style : Style) (depth : Nat) (items : List α) : Nat :=
  (items.map fun item => itemSize style depth (toJson item)).sum

/-- One value is another or is written with fewer bytes. -/
def Trimmed {α : Type} (toJson : α → Json) (a b : α) : Prop :=
  a = b ∨ ∀ style depth, (toJson a).size style depth < (toJson b).size style depth

section

variable {α : Type} {toJson : α → Json} {as bs : List α} {a b : α}

theorem Trimmed.size_le (h : Trimmed toJson a b) (style : Style) (depth : Nat) :
    (toJson a).size style depth ≤ (toJson b).size style depth := by
  obtain rfl | hlt := h
  · exact Nat.le_refl _
  · exact Nat.le_of_lt (hlt style depth)

theorem size_listJson (style : Style) (depth : Nat) :
    (listJson toJson as).size style depth =
      closedSize style depth (itemsSize toJson style (depth + 1) as) := by
  rw [listJson, size_array, List.map_map]
  rfl

theorem size_listJson_pos (style : Style) (depth : Nat) :
    0 < (listJson toJson as).size style depth := by
  rw [size_listJson]
  exact Nat.lt_of_lt_of_le Nat.two_pos (two_le_closedSize _)

theorem itemsSize_nil (style : Style) (depth : Nat) : itemsSize toJson style depth [] = 0 := rfl

theorem itemsSize_cons (style : Style) (depth : Nat) :
    itemsSize toJson style depth (a :: as) =
      1 + Text.Utf8.size (style.lineBreak depth) + (toJson a).size style depth +
        itemsSize toJson style depth as := by
  simp [itemsSize, itemSize]

/-- Trimmed items take fewer bytes unless they are the same. The induction is on how they lie among
the others; an item that is left out takes what stands before it along. -/
theorem itemsSize_lt (h : List.SublistForall₂ (Trimmed toJson) as bs) :
    as = bs ∨ ∀ style depth, itemsSize toJson style depth as < itemsSize toJson style depth bs := by
  induction h with
  | @nil bs =>
      cases bs with
      | nil => exact .inl rfl
      | cons b bs =>
          right
          intro style depth
          rw [itemsSize_nil, itemsSize_cons]
          omega
  | cons hfirst _ ih =>
      obtain rfl | hfirst := hfirst
      · refine ih.imp (congrArg _) fun hrest style depth => ?_
        simpa [itemsSize_cons] using hrest style depth
      · right
        intro style depth
        have hfirst := hfirst style depth
        rw [itemsSize_cons, itemsSize_cons]
        obtain rfl | hrest := ih
        · omega
        · have hrest := hrest style depth
          omega
  | cons_right _ ih =>
      right
      intro style depth
      rw [itemsSize_cons]
      obtain rfl | hrest := ih
      · omega
      · have hrest := hrest style depth
        omega

/-- Trimming items and leaving items out trims an array, if no item is written as nothing. -/
theorem trimmed_list (hwritten : ∀ style depth b, 0 < (toJson b).size style depth)
    (h : List.SublistForall₂ (Trimmed toJson) as bs) : Trimmed (listJson toJson) as bs := by
  refine (itemsSize_lt h).imp_right fun hlt style depth => ?_
  have hitems := hlt style (depth + 1)
  rw [size_listJson, size_listJson]
  apply closedSize_lt hitems
  cases bs with
  | nil => simp [itemsSize_nil] at hitems
  | cons b bs =>
      have hb := hwritten style (depth + 1) b
      rw [itemsSize_cons]
      omega

end

namespace Field

/-- The members that a content is written as: none for the content that is not there. -/
def members : (f : Field) → f.Content → List (String × Json)
  | .observation, content => optionMember "observation" wordJson content
  | .action, content => optionMember "action" wordJson content
  | .reward, content => optionMember "reward" Json.ofSingle content
  | .receivedRewards, content => listMember "received_rewards" Reward.toJson content
  | .sentRewards, content => listMember "sent_rewards" Reward.toJson content
  | .receivedMessages, content => listMember "received_messages" Message.toJson content
  | .sentMessages, content => listMember "sent_messages" Message.toJson content

theorem members_eq_nil_iff {f : Field} {content : f.Content} :
    f.members content = [] ↔ content = f.absent := by
  cases f <;> cases content <;> simp [members, absent, optionMember, listMember]

theorem mem_all (f : Field) : f ∈ all := by
  cases f <;> decide

/-- How many bytes the members of a content take in a step. -/
def size (style : Style) (depth : Nat) (f : Field) (content : f.Content) : Nat :=
  ((f.members content).map (fieldSize style depth)).sum

theorem size_absent (style : Style) (depth : Nat) (f : Field) :
    f.size style depth f.absent = 0 := by
  simp [size, members_eq_nil_iff.mpr]

theorem size_pos {style : Style} {depth : Nat} {f : Field} {content : f.Content}
    (h : content ≠ f.absent) : 0 < f.size style depth content := by
  obtain ⟨m, ms, hmembers⟩ := List.exists_cons_of_ne_nil (mt members_eq_nil_iff.mp h)
  have hm : 2 ≤ fieldSize style depth m := two_le_fieldSize m
  simp only [size, hmembers, List.map_cons, List.sum_cons]
  omega

end Field

namespace Step

theorem toJson_eq (s : Step) :
    s.toJson = .record (("actor", wordJson s.actor) ::
      Field.all.flatMap fun f => f.members (s.content f)) := by
  simp [toJson, Field.all, Field.members, content]

theorem size_toJson (style : Style) (depth : Nat) (s : Step) :
    s.toJson.size style depth = closedSize style depth
      (fieldSize style (depth + 1) ("actor", wordJson s.actor) +
        (Field.all.map fun f => f.size style (depth + 1) (s.content f)).sum) := by
  rw [toJson_eq, size_record, List.map_cons, List.sum_cons, List.map_flatMap, List.flatMap_def,
    List.sum_flatten, List.map_map]
  rfl

/-- Clearing fields trims a step. -/
theorem trimmed_retain (fields : FieldFilter) (s : Step) :
    Trimmed toJson (s.retain fields) s := by
  by_cases hsame : ∀ f, (s.retain fields).content f = s.content f
  · exact .inl (ext_content (retain_actor fields s) hsame)
  · right
    intro style depth
    obtain ⟨f, hcleared⟩ := not_forall.mp hsame
    have hle (g : Field) : g.size style (depth + 1) ((s.retain fields).content g) ≤
        g.size style (depth + 1) (s.content g) := by
      rw [retain_content]
      split
      · exact Nat.le_refl _
      · rw [g.size_absent]
        exact Nat.zero_le _
    have hlt : f.size style (depth + 1) ((s.retain fields).content f) <
        f.size style (depth + 1) (s.content f) := by
      rw [retain_content] at hcleared ⊢
      split at hcleared
      · exact absurd rfl hcleared
      · next hexcluded =>
          rw [if_neg hexcluded, f.size_absent]
          exact Field.size_pos (Ne.symm hcleared)
    have hsum := List.sum_lt_sum _ _ (fun g _ => hle g) ⟨f, f.mem_all, hlt⟩
    have hactor : 2 ≤ fieldSize style (depth + 1) ("actor", wordJson s.actor) :=
      two_le_fieldSize _
    rw [size_toJson, size_toJson, retain_actor]
    exact closedSize_lt (Nat.add_lt_add_left hsum _) (by omega)

end Step

/-- Emptying a payload trims it. -/
theorem trimmed_empty (payload : List UInt8) : Trimmed Json.ofBytes [] payload :=
  trimmed_list (fun _ _ b => size_ofNat_pos b.toNat) .nil

namespace Sample

variable {s t : Sample} {actors : ActorFilter} {fields : FieldFilter}

theorem trimmed_shownSteps :
    Trimmed (listJson Step.toJson) (s.shownSteps actors fields) s.steps := by
  apply trimmed_list
  · intro style depth step
    rw [Step.size_toJson]
    exact Nat.lt_of_lt_of_le Nat.two_pos (two_le_closedSize _)
  · unfold shownSteps
    induction s.steps with
    | nil => exact .nil
    | cons step steps ih =>
        rw [List.filter_cons]
        split
        · exact .cons (step.trimmed_retain fields) ih
        · exact .cons_right ih

theorem trimmed_sweep (slots : Slots) :
    Trimmed (listJson Json.ofBytes) (sweep slots) (slots.map Prod.fst) := by
  apply trimmed_list
  · intro style depth payload
    exact size_listJson_pos style depth
  · induction slots with
    | nil => exact .nil
    | cons slot slots ih =>
        obtain ⟨payload, keep⟩ := slot
        cases keep with
        | true => exact .cons (.inl rfl) ih
        | false => exact .cons (trimmed_empty payload) ih

theorem size_toJson (style : Style) (depth : Nat) (s : Sample) :
    s.toJson.size style depth = closedSize style depth
      (([("user_id", .text s.userId), ("trial_id", .text s.trialId), ("tick", .ofNat s.tick.toNat),
          ("timestamp", .ofNat s.timestamp.toNat)].map (fieldSize style (depth + 1))).sum +
        fieldSize style (depth + 1) ("actor_samples", listJson Step.toJson s.steps) +
        fieldSize style (depth + 1) ("payloads", listJson Json.ofBytes s.payloads)) := by
  rw [toJson, size_record]
  simp [listJson, Nat.add_assoc]

/-- A projection trims a sample. -/
theorem trimmed_view : Trimmed toJson (s.view actors fields) s := by
  have hsteps : Trimmed (listJson Step.toJson) (s.shownSteps actors fields) s.steps :=
    trimmed_shownSteps
  have hpayloads := trimmed_sweep (slotsOf (s.keepsPlace actors fields) s.payloads)
  rw [slotsOf_fst] at hpayloads
  by_cases hsame : s.view actors fields = s
  · exact .inl hsame
  · right
    intro style depth
    have hstepsLe := hsteps.size_le style (depth + 1)
    have hpayloadsLe := hpayloads.size_le style (depth + 1)
    rw [size_toJson, size_toJson]
    apply closedSize_lt
    · simp only [view, fieldSize, memberSize]
      obtain hsteps | hlt := hsteps
      · obtain hpayloads | hlt := hpayloads
        · exact absurd (by rw [view, hsteps, hpayloads]) hsame
        · have hlt := hlt style (depth + 1)
          omega
      · have hlt := hlt style (depth + 1)
        omega
    · have htwo : 2 ≤ fieldSize style (depth + 1)
          ("payloads", listJson Json.ofBytes s.payloads) := two_le_fieldSize _
      omega

/-- A projection loses something of a sample: a step whose actor is not shown, what an excluded
field of a shown step holds, or the bytes of a payload. -/
inductive Loses (s : Sample) (actors : ActorFilter) (fields : FieldFilter) (t : Sample) : Prop
  | step (step : Step) (hstep : step ∈ s.steps) (hhidden : actors.shows step.actor = false)
  | field (step : Step) (f : Field) (hstep : step ∈ s.steps)
      (hshown : actors.shows step.actor = true) (hexcluded : fields.includes f = false)
      (hpresent : step.content f ≠ f.absent)
  | payload (place : Nat) (payload : List UInt8) (hbefore : s.payloads[place]? = some payload)
      (hpresent : payload ≠ []) (hafter : t.payloads[place]? = some [])

theorem shownSteps_eq_self (h : ¬ s.Loses actors fields (s.view actors fields)) :
    s.shownSteps actors fields = s.steps := by
  have hshown (step : Step) (hstep : step ∈ s.steps) : actors.shows step.actor = true := by
    by_contra hhidden
    exact h (.step step hstep (Bool.eq_false_of_not_eq_true hhidden))
  have hretained (step : Step) (hstep : step ∈ s.steps) : step.retain fields = step := by
    rw [Step.retain_eq_self_iff]
    intro f hexcluded
    by_contra hpresent
    exact h (.field step f hstep (hshown step hstep) hexcluded hpresent)
  rw [shownSteps_of_shows hshown, List.map_congr_left hretained, List.map_id']

theorem payloads_view_eq_self (h : ¬ s.Loses actors fields (s.view actors fields)) :
    (s.view actors fields).payloads = s.payloads := by
  apply List.ext_getElem?
  intro place
  cases hkeeps : s.keepsPlace actors fields place with
  | true => exact sweep_keep _ _ _ hkeeps
  | false =>
      cases hbefore : s.payloads[place]? with
      | none => simp [view, sweep_getElem?, hbefore]
      | some payload =>
          have hafter : (s.view actors fields).payloads[place]? = some [] := by
            simp [view, sweep_getElem?, hbefore, hkeeps]
          rw [hafter]
          by_contra hpresent
          exact h (.payload place payload hbefore (fun hempty => hpresent (by rw [hempty])) hafter)

/-- Something of a sample is lost exactly when it is not its own view. -/
theorem loses_view_iff :
    s.Loses actors fields (s.view actors fields) ↔ s.view actors fields ≠ s := by
  constructor
  · intro hloses hsame
    have hsteps : s.shownSteps actors fields = s.steps := congrArg Sample.steps hsame
    cases hloses with
    | step step hstep hhidden =>
        rw [← hsteps] at hstep
        obtain ⟨_, _, hshown, rfl⟩ := mem_shownSteps.mp hstep
        rw [Step.retain_actor, hshown] at hhidden
        contradiction
    | field step f hstep _ hexcluded hpresent =>
        rw [← hsteps] at hstep
        obtain ⟨source, _, _, rfl⟩ := mem_shownSteps.mp hstep
        rw [Step.retain_content, hexcluded] at hpresent
        exact hpresent rfl
    | payload place payload hbefore hpresent hafter =>
        rw [hsame, hbefore] at hafter
        exact hpresent (Option.some.inj hafter)
  · intro hdiffers
    by_contra hkeeps
    have hpayloads : sweep (slotsOf (s.keepsPlace actors fields) s.payloads) = s.payloads :=
      payloads_view_eq_self hkeeps
    exact hdiffers (by rw [view, shownSteps_eq_self hkeeps, hpayloads])

/-- How many bytes a sample takes in a style. -/
def encodedSize (style : Style) (s : Sample) : Nat := (Text.Utf8.encode (s.render style)).length

/-- In both styles a projected sample takes no more bytes than the sample, just as many only if it
is the sample, and fewer exactly if something is lost: a step that is there is hidden, a field that
a shown step has is excluded, or a payload that is not empty is emptied. -/
theorem encodedSize_project (h : s.project actors fields = .ok t) (style : Style) :
    t.encodedSize style ≤ s.encodedSize style ∧
    (t.encodedSize style = s.encodedSize style ↔ t = s) ∧
    (t.encodedSize style < s.encodedSize style ↔ s.Loses actors fields t) := by
  obtain ⟨_, rfl⟩ := project_eq_ok.mp h
  rw [loses_view_iff]
  obtain hsame | hlt : Trimmed toJson (s.view actors fields) s := trimmed_view
  · simp [hsame]
  · have hless : (s.view actors fields).encodedSize style < s.encodedSize style := hlt style 0
    have hdiffers : s.view actors fields ≠ s := by
      intro hsame
      rw [hsame] at hless
      exact Nat.lt_irrefl _ hless
    exact ⟨Nat.le_of_lt hless, by simp [Nat.ne_of_lt hless, hdiffers], by simp [hless, hdiffers]⟩

/-- A hidden step and two payloads that nobody else refers to are lost. -/
theorem shared_encodedSize :
    let actors : ActorFilter := .restricted ⟨[false, true]⟩
    let t : Sample := { shared with steps := shared.steps.drop 1, payloads := [[1], [], [3], []] }
    shared.project actors .unrestricted = .ok t ∧
    shared.Loses actors .unrestricted t ∧
    t.encodedSize .indented < shared.encodedSize .indented := by
  intro actors t
  have hproject : shared.project actors .unrestricted = .ok t := rfl
  have hloses : shared.Loses actors .unrestricted t :=
    .payload 1 [2] rfl (List.cons_ne_nil _ _) rfl
  obtain ⟨_, _, hless⟩ := encodedSize_project hproject .indented
  exact ⟨hproject, hloses, hless.mpr hloses⟩

end Sample

end TrialView
