import TrialView.Proofs.Encoding.Value

/-!
What samples come back as when they are written and read. Everything in a sample is read as it was
written but for its single-precision numbers: a sample comes back with each of them as it comes back
for itself. So a sample is what its text is read as exactly if each number in it is what its own
text is read as. A number past the range of single precision is read as an infinity, which has no
text: where a number is needed the written sample is then refused, and where it may be absent it is
lost.
-/

namespace TrialView

open Json Number Record

namespace Reward

def parts (r : Reward) : List (SlotPart Reward) :=
  slots.zip [some r.peer.toJson, some (.ofSingle r.value), some (.ofSingle r.confidence),
    r.userData.map wordJson]

theorem toJson_eq (r : Reward) : r.toJson = .record (members r.parts) := by
  simp [toJson, parts, slots]

theorem written_toJson (r : Reward) : Written r.toJson := by
  rw [toJson_eq]
  apply written_members
  simp [parts, slots, Peer.written_toJson, written_ofSingle, written_wordJson]

/-- A reward with its numbers as they come back. -/
def reread (r : Reward) : Except Fault Reward := do
  let value ← r.value.reread
  let confidence ← r.confidence.reread
  pure { r with value, confidence }

theorem read_toJson (r : Reward) : read r.toJson = r.reread := by
  have hslots : r.parts.map Prod.fst = slots := rfl
  rw [toJson_eq, read, read_members _ hslots (by simp [slots]) (by simp [parts, slots])]
  simp [parts, slots, blank, fill_nil, fill_needed, fill_optional, Peer.read_toJson,
    rereadOption_word32]
  rfl

/-- The numbers in a reward. -/
def singles (r : Reward) : List Single := [r.value, r.confidence]

theorem reread_eq_ok_iff {r : Reward} : r.reread = .ok r ↔ ∀ x ∈ r.singles, x.ReadsBack := by
  obtain ⟨peer, value, confidence, userData⟩ := r
  simp only [singles, List.forall_mem_cons, List.not_mem_nil, false_implies, implies_true, and_true,
    ← Single.reread_eq_ok_iff, reread]
  cases value.reread with
  | error fault => simp
  | ok value' => cases confidence.reread <;> simp [pure, Except.pure]

end Reward

namespace Message

def parts (m : Message) : List (SlotPart Message) :=
  slots.zip [some m.peer.toJson, some (wordJson m.payload)]

theorem toJson_eq (m : Message) : m.toJson = .record (members m.parts) := by
  simp [toJson, parts, slots]

theorem written_toJson (m : Message) : Written m.toJson := by
  rw [toJson_eq]
  apply written_members
  simp [parts, slots, Peer.written_toJson, written_wordJson]

theorem read_toJson (m : Message) : read m.toJson = .ok m := by
  have hslots : m.parts.map Prod.fst = slots := rfl
  rw [toJson_eq, read, read_members _ hslots (by simp [slots]) (by simp [parts, slots])]
  simp [parts, slots, blank, fill_nil, fill_needed, Peer.read_toJson, word32_wordJson]

end Message

namespace Step

def parts (s : Step) : List (SlotPart Step) :=
  slots.zip [some (wordJson s.actor), s.observation.map wordJson, s.action.map wordJson,
    s.reward.map Json.ofSingle, listPart Reward.toJson s.receivedRewards,
    listPart Reward.toJson s.sentRewards, listPart Message.toJson s.receivedMessages,
    listPart Message.toJson s.sentMessages]

theorem toJson_eq_members (s : Step) : s.toJson = .record (members s.parts) := by
  simp [toJson, parts, slots]

theorem written_toJson (s : Step) : Written s.toJson := by
  have hword (n? : Option UInt32) : ∀ v ∈ n?.map wordJson, Written v :=
    written_map written_wordJson n?
  have hrewards (rs : List Reward) : ∀ v ∈ listPart Reward.toJson rs, Written v :=
    written_listPart Reward.written_toJson rs
  have hmessages (ms : List Message) : ∀ v ∈ listPart Message.toJson ms, Written v :=
    written_listPart Message.written_toJson ms
  rw [toJson_eq_members]
  apply written_members
  simp only [parts, slots, List.zip_cons_cons, List.zip_nil_right, List.forall_mem_cons]
  exact ⟨by simpa using written_wordJson s.actor, hword _, hword _, written_map written_ofSingle _,
    hrewards _, hrewards _, hmessages _, hmessages _, by simp⟩

/-- A step with its numbers as they come back. -/
def reread (s : Step) : Except Fault Step := do
  let reward ← rereadOption Source.single Json.ofSingle s.reward
  let receivedRewards ← s.receivedRewards.mapM Reward.reread
  let sentRewards ← s.sentRewards.mapM Reward.reread
  pure { s with reward, receivedRewards, sentRewards }

theorem read_toJson (s : Step) : read s.toJson = s.reread := by
  have hslots : s.parts.map Prod.fst = slots := rfl
  have hmessages (ms : List Message) : ms.mapM (fun m => Message.read m.toJson) = .ok ms :=
    mapM_eq_ok_self_iff.mpr fun m _ => m.read_toJson
  rw [toJson_eq_members, read, read_members _ hslots (by simp [slots]) (by simp [parts, slots])]
  simp [parts, slots, blank, fill_nil, fill_needed, fill_optional, fill_list, word32_wordJson,
    rereadOption_word32, Reward.read_toJson, hmessages]
  rfl

/-- The numbers in a step. -/
def singles (s : Step) : List Single :=
  s.reward.toList ++ s.receivedRewards.flatMap Reward.singles
    ++ s.sentRewards.flatMap Reward.singles

theorem reread_eq_ok_iff {s : Step} : s.reread = .ok s ↔ ∀ x ∈ s.singles, x.ReadsBack := by
  have hrewards (rs : List Reward) : rs.mapM Reward.reread = .ok rs ↔
      ∀ x ∈ rs.flatMap Reward.singles, x.ReadsBack := by
    simp only [mapM_eq_ok_self_iff, Reward.reread_eq_ok_iff, List.forall_mem_flatMap]
  obtain ⟨actor, observation, action, reward, received, sent, _, _⟩ := s
  simp only [singles, List.forall_mem_append, ← hrewards,
    ← Single.rereadOption_eq_ok_iff, reread]
  cases rereadOption Source.single Json.ofSingle reward with
  | error fault => simp
  | ok reward' =>
      cases received.mapM Reward.reread with
      | error fault => simp
      | ok received' => cases sent.mapM Reward.reread <;> simp [pure, Except.pure, and_assoc]

end Step

namespace Sample

def parts (s : Sample) : List (SlotPart Sample) :=
  slots.zip [some (.text s.userId), some (.text s.trialId), some (.ofNat s.tick.toNat),
    some (.ofNat s.timestamp.toNat), some (.array (s.steps.map Step.toJson)),
    some (.array (s.payloads.map Json.ofBytes))]

theorem toJson_eq (s : Sample) : s.toJson = .record (members s.parts) := by
  simp [toJson, parts, slots]

theorem written_toJson (s : Sample) : Written s.toJson := by
  rw [toJson_eq]
  apply written_members
  simp [parts, slots, Written.text, written_ofNat, written_array, Step.written_toJson,
    written_ofBytes]

/-- A sample with its numbers as they come back. -/
def reread (s : Sample) : Except Fault Sample := do
  let steps ← s.steps.mapM Step.reread
  pure { s with steps }

theorem read_toJson (s : Sample) : read s.toJson = s.reread := by
  have hslots : s.parts.map Prod.fst = slots := rfl
  have hpayloads : s.payloads.mapM (fun bs => Source.bytes (Json.ofBytes bs)) = .ok s.payloads :=
    mapM_eq_ok_self_iff.mpr fun bs _ => bytes_ofBytes bs
  rw [toJson_eq, read, read_members _ hslots (by simp [slots]) (by simp [parts, slots])]
  simp [parts, slots, blank, fill_nil, fill_needed, fill_defaulted, list_array, word64_ofNat,
    text_text, Step.read_toJson, hpayloads]
  rfl

/-- The numbers in a sample. -/
def singles (s : Sample) : List Single := s.steps.flatMap Step.singles

theorem reread_eq_ok_iff {s : Sample} : s.reread = .ok s ↔ ∀ x ∈ s.singles, x.ReadsBack := by
  have hsteps (steps : List Step) : steps.mapM Step.reread = .ok steps ↔
      ∀ x ∈ steps.flatMap Step.singles, x.ReadsBack := by
    simp only [mapM_eq_ok_self_iff, Step.reread_eq_ok_iff, List.forall_mem_flatMap]
  obtain ⟨_, _, _, _, steps, _⟩ := s
  simp only [singles, ← hsteps, reread]
  cases steps.mapM Step.reread <;> simp [pure, Except.pure]

/-- The text of any sample is read as the sample with its numbers as they come back. -/
theorem decode_render_eq (style : Style) (s : Sample) :
    Json.decode read (s.render style) = s.reread := by
  rw [render, decode_render s.written_toJson, read_toJson]

/-- A written sample is read as itself exactly if it holds no number that is not finite or that is
not what its text is read as. Whether the sample was itself read from a text makes no difference. -/
theorem decode_render_eq_ok_iff (style : Style) (s : Sample) :
    Json.decode read (s.render style) = .ok s ↔ ∀ x ∈ s.singles, x.ReadsBack := by
  rw [decode_render_eq, reread_eq_ok_iff]

/-- A reward past the range of single precision that was received. -/
def boundlessReceived : Sample :=
  ⟨"", "t", 0, 0,
    [⟨0, none, none, none, [⟨.environment, .infinity false, .ofInt 1, none⟩], [], [], []⟩], []⟩

/-- The same for the reward of a step, which may also be absent. -/
def boundlessReward : Sample :=
  ⟨"", "t", 0, 0, [⟨0, none, none, some (.infinity false), [], [], [], []⟩], []⟩

set_option maxRecDepth 4000 in
/-- Two texts are read as samples with an infinite reward. What is written for the first is refused,
and what is written for the second is read as a sample without the reward. -/
theorem boundless_not_read_back :
    Json.decode read ("\x7b\"trial_id\":\"t\",\"tick\":0,\"actor_samples\":[\x7b\"actor\":0," ++
      "\"received_rewards\":[\x7b\"peer\":-1,\"value\":1e39,\"confidence\":1\x7d]\x7d]\x7d").toList =
        .ok boundlessReceived ∧
    Json.decode read (boundlessReceived.render .compact) =
      .error (.data "invalid type: null, expected f32") ∧
    Json.decode read ("\x7b\"trial_id\":\"t\",\"tick\":0,\"actor_samples\":[\x7b\"actor\":0," ++
      "\"reward\":1e39\x7d]\x7d").toList = .ok boundlessReward ∧
    Json.decode read (boundlessReward.render .compact) =
      .ok { boundlessReward with steps := [{ Step.blank with actor := 0 }] } := by
  refine ⟨?_, ?_, ?_, ?_⟩
  · decide +kernel
  · rw [decode_render_eq]
    rfl
  · decide +kernel
  · rw [decode_render_eq]
    rfl

end Sample

end TrialView
