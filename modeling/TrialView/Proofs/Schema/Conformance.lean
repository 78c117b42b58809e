import TrialView.Proofs.Encoding.Value
import TrialView.Proofs.Schema.Leaves
import TrialView.Proofs.Schema.Parts

/-!
The documents of samples. Which documents describe a sample, and which sample they describe, is said
record by record: a part that is required stands for its field, and one that is not stands for the
default where nothing is given. A text is decoded to a sample exactly if the tree that it spells
describes the sample.
-/

namespace TrialView

open Json Number

section

variable {β : Type}

/-- A part of a record that has to be there. -/
inductive Required (R : Json → β → Prop) : Option Json → β → Prop
  | given {v : Json} {b : β} (h : R v b) : Required R (some v) b

/-- A part of a record that has a default. -/
inductive Defaulted (R : Json → β → Prop) (b₀ : β) : Option Json → β → Prop
  | absent : Defaulted R b₀ none b₀
  | given {v : Json} {b : β} (h : R v b) : Defaulted R b₀ (some v) b

end

namespace Record

variable {α β : Type} {name : String} {read : Json → Except Fault β} {R : Json → β → Prop}
  {set : β → α → α} {v? : Option Json} {parts : List (SlotPart α)} {a r : α}

theorem put_eq_ok_iff (h : Decides read R) {v : Json} (hv : v.Proper) :
    (do return set (← read v) a : Except Fault α) = .ok r ↔ ∃ b, R v b ∧ set b a = r := by
  simp only [← h v hv]
  cases read v with
  | error fault => simp
  | ok b => simp [pure, Except.pure]

theorem fills_needed (h : Decides read R) (hv : ∀ v ∈ v?, v.Proper) :
    Fills ((.needed name read set, v?) :: parts) a r ↔
      ∃ b, Required R v? b ∧ Fills parts (set b a) r := by
  cases v? with
  | none =>
      rw [fills_none]
      refine iff_of_false (by simp) ?_
      rintro ⟨_, ⟨⟩, _⟩
  | some v =>
      rw [fills_some]
      simp only [Slot.needed, put_eq_ok_iff h (hv v rfl)]
      constructor
      · rintro ⟨_, ⟨b, hb, rfl⟩, hrest⟩
        exact ⟨b, .given hb, hrest⟩
      · rintro ⟨b, ⟨hb⟩, hrest⟩
        exact ⟨_, ⟨b, hb, rfl⟩, hrest⟩

/-- What is left off keeps the value of `b₀` that it has. -/
theorem fills_defaulted (h : Decides read R) (hv : ∀ v ∈ v?, v.Proper) {b₀ : β}
    (hset : set b₀ a = a) :
    Fills ((.defaulted name read set, v?) :: parts) a r ↔
      ∃ b, Defaulted R b₀ v? b ∧ Fills parts (set b a) r := by
  cases v? with
  | none =>
      rw [fills_none, Slot.defaulted_required, and_iff_right rfl]
      constructor
      · intro hrest
        exact ⟨b₀, .absent, by rwa [hset]⟩
      · rintro ⟨_, ⟨⟩, hrest⟩
        rwa [hset] at hrest
  | some v =>
      rw [fills_some]
      simp only [Slot.defaulted, put_eq_ok_iff h (hv v rfl)]
      constructor
      · rintro ⟨_, ⟨b, hb, rfl⟩, hrest⟩
        exact ⟨b, .given hb, hrest⟩
      · rintro ⟨b, hb, hrest⟩
        cases hb with
        | given hb => exact ⟨_, ⟨b, hb, rfl⟩, hrest⟩

/-- A record is read from the values whose parts fit it. -/
theorem decides_read (expected : String) {slots : List (Slot Json α)} {blank : α}
    {Fits : (String → Option Json) → α → Prop} (hslots : Independent slots)
    (h : ∀ found, (∀ name, ∀ w ∈ found name, w.Proper) → ∀ r,
      Fills (partsOf slots found) blank r ↔ Fits found r) :
    Decides (Record.read expected slots blank) fun v r =>
      ∃ found, v.Holds (slots.map (·.name)) found ∧ Fits found r := by
  intro v hv r
  rw [Record.read_eq_ok_iff expected hslots hv]
  exact exists_congr fun found => and_congr_right fun hholds => h found (hholds.proper hv) r

end Record

theorem decides_optional_word32 : Decides (Source.optional Source.word32) (IsOptional IsWord32) :=
  decides_word32.optional nofun

theorem decides_optional_single : Decides (Source.optional Source.single) (IsOptional IsSingle) :=
  decides_single.optional nofun

theorem decides_bytes : Decides Source.bytes (IsList IsByte) :=
  decides_byte.list

namespace Reward

/-- What the parts of a reward stand for. -/
structure Fits (found : String → Option Json) (r : Reward) : Prop where
  peer : Required IsPeer (found "peer") r.peer
  value : Required IsSingle (found "value") r.value
  confidence : Required IsSingle (found "confidence") r.confidence
  userData : Defaulted (IsOptional IsWord32) none (found "user_data") r.userData

/-- The documents of rewards. -/
def Describes (v : Json) (r : Reward) : Prop :=
  ∃ found, v.Holds ["peer", "value", "confidence", "user_data"] found ∧ Fits found r

theorem independent_slots : Record.Independent (slots (V := Json)) where
  nodup := by decide
  commute := by
    simp only [slots, List.pairwise_cons, List.forall_mem_cons, List.not_mem_nil, false_imp_iff,
      implies_true, and_true, List.Pairwise.nil]
    and_intros <;> exact Slot.commutes_of_set rfl rfl fun _ _ _ => rfl

theorem fills_iff {found : String → Option Json} (h : ∀ name, ∀ w ∈ found name, w.Proper)
    {r : Reward} : Record.Fills (Record.partsOf slots found) blank r ↔ Fits found r := by
  simp (disch := rfl) only [Record.partsOf, slots, List.map_cons, List.map_nil, Slot.needed_name,
    Slot.defaulted_name, Record.fills_nil,
    Record.fills_needed Peer.decides_read (h _), Record.fills_needed decides_single (h _),
    Record.fills_defaulted decides_optional_word32 (h _)]
  constructor
  · rintro ⟨_, hpeer, _, hvalue, _, hconfidence, _, huserData, rfl⟩
    exact ⟨hpeer, hvalue, hconfidence, huserData⟩
  · rintro ⟨hpeer, hvalue, hconfidence, huserData⟩
    exact ⟨_, hpeer, _, hvalue, _, hconfidence, _, huserData, rfl⟩

/-- A reward is read from its documents. -/
theorem decides_read : Decides read Describes :=
  Record.decides_read _ independent_slots fun _ h _ => fills_iff h

end Reward

namespace Message

/-- What the parts of a message stand for. -/
structure Fits (found : String → Option Json) (m : Message) : Prop where
  peer : Required IsPeer (found "peer") m.peer
  payload : Required IsWord32 (found "payload") m.payload

/-- The documents of messages. -/
def Describes (v : Json) (m : Message) : Prop :=
  ∃ found, v.Holds ["peer", "payload"] found ∧ Fits found m

theorem independent_slots : Record.Independent (slots (V := Json)) where
  nodup := by decide
  commute := by
    simp only [slots, List.pairwise_cons, List.forall_mem_cons, List.not_mem_nil, false_imp_iff,
      implies_true, and_true, List.Pairwise.nil]
    exact Slot.commutes_of_set rfl rfl fun _ _ _ => rfl

theorem fills_iff {found : String → Option Json} (h : ∀ name, ∀ w ∈ found name, w.Proper)
    {m : Message} : Record.Fills (Record.partsOf slots found) blank m ↔ Fits found m := by
  simp only [Record.partsOf, slots, List.map_cons, List.map_nil, Slot.needed_name, Record.fills_nil,
    Record.fills_needed Peer.decides_read (h _), Record.fills_needed decides_word32 (h _)]
  constructor
  · rintro ⟨_, hpeer, _, hpayload, rfl⟩
    exact ⟨hpeer, hpayload⟩
  · rintro ⟨hpeer, hpayload⟩
    exact ⟨_, hpeer, _, hpayload, rfl⟩

/-- A message is read from its documents. -/
theorem decides_read : Decides read Describes :=
  Record.decides_read _ independent_slots fun _ h _ => fills_iff h

end Message

namespace Step

/-- What the parts of a step stand for. -/
structure Fits (found : String → Option Json) (s : Step) : Prop where
  actor : Required IsWord32 (found "actor") s.actor
  observation : Defaulted (IsOptional IsWord32) none (found "observation") s.observation
  action : Defaulted (IsOptional IsWord32) none (found "action") s.action
  reward : Defaulted (IsOptional IsSingle) none (found "reward") s.reward
  receivedRewards :
    Defaulted (IsList Reward.Describes) [] (found "received_rewards") s.receivedRewards
  sentRewards : Defaulted (IsList Reward.Describes) [] (found "sent_rewards") s.sentRewards
  receivedMessages :
    Defaulted (IsList Message.Describes) [] (found "received_messages") s.receivedMessages
  sentMessages : Defaulted (IsList Message.Describes) [] (found "sent_messages") s.sentMessages

/-- The documents of steps. -/
def Describes (v : Json) (s : Step) : Prop :=
  ∃ found, v.Holds ["actor", "observation", "action", "reward", "received_rewards", "sent_rewards",
      "received_messages", "sent_messages"] found ∧
    Fits found s

theorem independent_slots : Record.Independent (slots (V := Json)) where
  nodup := by decide
  commute := by
    simp only [slots, List.pairwise_cons, List.forall_mem_cons, List.not_mem_nil, false_imp_iff,
      implies_true, and_true, List.Pairwise.nil]
    and_intros <;> exact Slot.commutes_of_set rfl rfl fun _ _ _ => rfl

theorem fills_iff {found : String → Option Json} (h : ∀ name, ∀ w ∈ found name, w.Proper)
    {s : Step} : Record.Fills (Record.partsOf slots found) blank s ↔ Fits found s := by
  simp (disch := rfl) only [Record.partsOf, slots, List.map_cons, List.map_nil, Slot.needed_name,
    Slot.defaulted_name, Record.fills_nil,
    Record.fills_needed decides_word32 (h _), Record.fills_defaulted decides_optional_word32 (h _),
    Record.fills_defaulted decides_optional_single (h _),
    Record.fills_defaulted Reward.decides_read.list (h _),
    Record.fills_defaulted Message.decides_read.list (h _)]
  constructor
  · rintro ⟨_, hactor, _, hobservation, _, haction, _, hreward, _, hreceivedRewards, _,
      hsentRewards, _, hreceivedMessages, _, hsentMessages, rfl⟩
    exact ⟨hactor, hobservation, haction, hreward, hreceivedRewards, hsentRewards,
      hreceivedMessages, hsentMessages⟩
  · rintro ⟨hactor, hobservation, haction, hreward, hreceivedRewards, hsentRewards,
      hreceivedMessages, hsentMessages⟩
    exact ⟨_, hactor, _, hobservation, _, haction, _, hreward, _, hreceivedRewards, _, hsentRewards,
      _, hreceivedMessages, _, hsentMessages, rfl⟩

/-- A step is read from its documents. -/
theorem decides_read : Decides read Describes :=
  Record.decides_read _ independent_slots fun _ h _ => fills_iff h

end Step

namespace Sample

/-- What the parts of a sample stand for. -/
structure Fits (found : String → Option Json) (s : Sample) : Prop where
  userId : Defaulted IsText "" (found "user_id") s.userId
  trialId : Required IsText (found "trial_id") s.trialId
  tick : Required IsWord64 (found "tick") s.tick
  timestamp : Defaulted IsWord64 0 (found "timestamp") s.timestamp
  steps : Defaulted (IsList Step.Describes) [] (found "actor_samples") s.steps
  payloads : Defaulted (IsList (IsList IsByte)) [] (found "payloads") s.payloads

/-- The documents of samples. -/
def Describes (v : Json) (s : Sample) : Prop :=
  ∃ found, v.Holds ["user_id", "trial_id", "tick", "timestamp", "actor_samples", "payloads"] found ∧
    Fits found s

theorem independent_slots : Record.Independent (slots (V := Json)) where
  nodup := by decide
  commute := by
    simp only [slots, List.pairwise_cons, List.forall_mem_cons, List.not_mem_nil, false_imp_iff,
      implies_true, and_true, List.Pairwise.nil]
    and_intros <;> exact Slot.commutes_of_set rfl rfl fun _ _ _ => rfl

theorem fills_iff {found : String → Option Json} (h : ∀ name, ∀ w ∈ found name, w.Proper)
    {s : Sample} : Record.Fills (Record.partsOf slots found) blank s ↔ Fits found s := by
  simp (disch := rfl) only [Record.partsOf, slots, List.map_cons, List.map_nil, Slot.needed_name,
    Slot.defaulted_name, Record.fills_nil,
    Record.fills_defaulted decides_text (h _), Record.fills_needed decides_text (h _),
    Record.fills_needed decides_word64 (h _), Record.fills_defaulted decides_word64 (h _),
    Record.fills_defaulted Step.decides_read.list (h _),
    Record.fills_defaulted decides_bytes.list (h _)]
  constructor
  · rintro ⟨_, huserId, _, htrialId, _, htick, _, htimestamp, _, hsteps, _, hpayloads, rfl⟩
    exact ⟨huserId, htrialId, htick, htimestamp, hsteps, hpayloads⟩
  · rintro ⟨huserId, htrialId, htick, htimestamp, hsteps, hpayloads⟩
    exact ⟨_, huserId, _, htrialId, _, htick, _, htimestamp, _, hsteps, _, hpayloads, rfl⟩

/-- A sample is read from its documents. -/
theorem decides_read : Decides read Describes :=
  Record.decides_read _ independent_slots fun _ h _ => fills_iff h

/-- A text is decoded to the sample that the document it spells describes, and to none if there is
no such sample. A number of the document stands for one value within the reach of doubles, and for
none beyond it. -/
theorem decode_eq_ok_iff_describes {v : Json} {cs : List Char} (h : v.Spells cs) :
    (∀ s, decode read cs = .ok s ↔ Describes v s) ∧
      ∀ l, IsLexeme l → (absValue l ≤ Double.reach → ∃! x, IsSingle (.number l) x) ∧
        (Double.beyond ≤ absValue l → ∀ x, ¬ IsSingle (.number l) x) :=
  ⟨fun s => by rw [h.decode_eq, decides_read v h.proper s],
    fun _ hl => ⟨existsUnique_isSingle hl, not_isSingle hl⟩⟩

/-- Members in another order than that of the record, one that nobody asked for, a step and a reward
given by their items and a step by its members, numbers with a point, a sign and an exponent. -/
def shuffledDocument : Json :=
  .object [(.text "tick", .ofNat 7), (.text "note", .array [.null, .object []]),
    (.text "actor_samples", .array [.array [.ofNat 2, .null, .ofNat 0],
      .object [(.text "sent_messages", .array [.array [.ofInt (-1), .ofNat 5]]),
        (.text "reward", .number ['0', '.', '1']), (.text "actor", .ofNat 1),
        (.text "received_rewards",
          .array [.array [.ofNat 0, .number ['-', '2', '5', 'e', '-', '2'], .ofNat 1]])]]),
    (.text "trial_id", .text "t"), (.text "payloads", .array [.array [.ofNat 9]])]

def shuffledSample : Sample :=
  ⟨"", "t", 7, 0, [⟨2, none, some 0, none, [], [], [], []⟩,
    ⟨1, none, none, some ⟨0x3DCCCCCD⟩, [⟨.actor 0, ⟨0xBE800000⟩, ⟨0x3F800000⟩, none⟩], [], [],
      [⟨.environment, 5⟩]⟩], [[9]]⟩

theorem written_shuffledDocument : Written shuffledDocument := by
  have htenth : IsLexeme ['0', '.', '1'] :=
    .positive ⟨['0'], ['.', '1'], [], ⟨by decide, by decide⟩, .present (by decide), .absent, rfl⟩
  have hquarter : IsLexeme ['-', '2', '5', 'e', '-', '2'] :=
    .negative ⟨['2', '5'], [], ['e', '-', '2'], ⟨by decide, by decide⟩, .absent,
      @IsExponent.present 'e' ['-'] ['2'] (.inl rfl) (.inr (.inr rfl)) (by decide), rfl⟩
  simp [shuffledDocument, written_array_iff, written_object_iff, written_ofNat, written_ofInt,
    Written.null, Written.text, Written.number htenth, Written.number hquarter]

/-- A number past the range. -/
def pastTop : List Char := "1e309".toList

theorem isDecimal_pastTop : IsDecimal pastTop ['1'] [] 309 :=
  @IsDecimal.parts ['1'] [] "e309".toList [] 309 ⟨by decide, by decide⟩ .absent
    (@IsExponentOf.plain 'e' "309".toList (.inl rfl) (by decide))

theorem beyond_le_pastTop : Double.beyond ≤ absValue pastTop := by
  have hvalue : absValue pastTop = unsignedValue pastTop := rfl
  have hone : natValue (['1'] ++ []) = 1 := rfl
  have hplace : (309 : Int) - (([] : List Char).length : Int) = (309 : Nat) := rfl
  have hpower : (2 : ℚ) ^ ((1025 : Nat) : Int) ≤ 10 ^ 309 := Double.le_pow_ten (by decide +kernel)
  rw [hvalue, isDecimal_pastTop.unsignedValue_eq, hone, hplace, zpow_natCast, Nat.cast_one, one_mul]
  rw [zpow_natCast, pow_succ] at hpower
  refine le_trans ?_ hpower
  exact mul_le_mul_of_nonneg_left (by norm_num) (by positivity)

theorem shuffledDocument_describes :
    shuffledDocument.Spells (shuffledDocument.render .indented) ∧
      Describes shuffledDocument shuffledSample ∧
        (absValue ['2'] ≤ Double.reach ∧ ∃! x, IsSingle (.number ['2']) x) ∧
          Double.beyond ≤ absValue pastTop ∧ ∀ x, ¬ IsSingle (.number pastTop) x := by
  have hspelled := written_shuffledDocument.isSpelled .indented 0
  have hdecoded : decode read (shuffledDocument.render .indented) = .ok shuffledSample := by
    decide +kernel
  have htwo : absValue ['2'] ≤ Double.reach := by
    have hvalue : absValue ['2'] = (2 : Nat) * 10 ^ (0 : Int) := rfl
    rw [hvalue, zpow_zero, mul_one]
    exact (le_self_pow₀ (by norm_num) (by norm_num)).trans Double.pow_le_reach
  obtain ⟨hiff, hnumber⟩ := decode_eq_ok_iff_describes hspelled
  exact ⟨hspelled, (hiff shuffledSample).mp hdecoded,
    ⟨htwo, (hnumber ['2'] (.positive (isUnsigned_natText 2))).1 htwo⟩, beyond_le_pastTop,
    (hnumber pastTop (.positive isDecimal_pastTop.isUnsigned)).2 beyond_le_pastTop⟩

/-- A number below the greatest double that is rounded past it. -/
def nearTop : List Char := "1.797693134862315708e308".toList

def nearTopDocument : Json :=
  .object [(.text "trial_id", .text "t"), (.text "tick", .ofNat 0),
    (.text "actor_samples", .array [.object [(.text "actor", .ofNat 0),
      (.text "reward", .number nearTop)]])]

def nearTopText : List Char :=
  ("\x7b\"trial_id\":\"t\",\"tick\":0,\"actor_samples\":[\x7b\"actor\":0," ++
    "\"reward\":1.797693134862315708e308\x7d]\x7d").toList

/-- A document with a member that nobody asked for, whose name is half of a surrogate pair. -/
def unpairedDocument : Json :=
  .object [(.unpaired, .null), (.text "trial_id", .text "t"), (.text "tick", .ofNat 0)]

def unpairedText : List Char :=
  "\x7b\"\\ud800\":null,\"trial_id\":\"t\",\"tick\":0\x7d".toList

theorem isLexeme_nearTop : IsLexeme nearTop := by
  have hwhole : IsWhole "1".toList := ⟨by decide, by decide⟩
  have hfraction : IsFraction ".797693134862315708".toList := .present (by decide)
  have hexponent : IsExponent "e308".toList :=
    @IsExponent.present 'e' [] "308".toList (.inl rfl) (.inl rfl) (by decide)
  exact .positive ⟨_, _, _, hwhole, hfraction, hexponent, rfl⟩

theorem absValue_nearTop :
    absValue nearTop = (1797693134862315708 : Nat) * 10 ^ ((290 : Nat) : Int) := by
  have hparts : Numeral.parts nearTop =
      ("1".toList, some "797693134862315708".toList, some "308".toList) := by decide +kernel
  have hvalue : absValue nearTop = unsignedValue nearTop := rfl
  have hdigits : natValue ("1".toList ++ "797693134862315708".toList) = 1797693134862315708 := by
    decide +kernel
  have hplace : exponentValue "308".toList - ("797693134862315708".toList.length : Int) = 290 := by
    decide +kernel
  rw [hvalue, unsignedValue, hparts]
  simp only [Option.getD_some]
  rw [hdigits, hplace]
  rfl

theorem absValue_nearTop_lt : absValue nearTop < (⟨2 ^ 53 - 1, 971⟩ : Magnitude).value := by
  have hlt {a b c d : Nat} (h : a * 10 ^ b < c * 2 ^ d) :
      (a : ℚ) * 10 ^ (b : Int) < c * 2 ^ (d : Int) := by
    rw [zpow_natCast, zpow_natCast]
    exact_mod_cast h
  rw [absValue_nearTop]
  exact hlt (by decide +kernel)

theorem spells_nearTopText : nearTopDocument.Spells nearTopText := by
  have hwritten : Written nearTopDocument := by
    simp [nearTopDocument, written_array_iff, written_object_iff, written_ofNat, Written.text,
      Written.number isLexeme_nearTop]
  have htext : nearTopDocument.render .compact = nearTopText := by decide +kernel
  exact htext ▸ hwritten.isSpelled .compact 0

theorem spells_unpairedText : unpairedDocument.Spells unpairedText := by
  have hunpaired : Spells .unpaired "\"\\ud800\"".toList := by
    have hunit : Piece.Spells (.unit 0xd800) "\\ud800".toList := .unit rfl
    exact @Spells.string [(.unit 0xd800, "\\ud800".toList)] (by simpa using hunit)
  have htick := SpellsMembers.one (k := .text "tick") rfl (spells_writeText "tick")
    ((written_ofNat 0).isSpelled .compact 0)
  have htrial := SpellsMembers.more rfl (spells_writeText "trial_id") (spells_writeText "t") htick
  have hall := Spells.of_members (SpellsMembers.more rfl hunpaired .null htrial)
  have htext : '\x7b' :: ("\"\\ud800\"".toList ++ ':' :: "null".toList ++ ',' ::
      (writeText "trial_id" ++ ':' :: writeText "t" ++ ',' ::
        (writeText "tick" ++ ':' :: (Json.ofNat 0).write .compact 0)) ++ ['\x7d']) =
          unpairedText := by decide +kernel
  exact htext ▸ hall

/-- Not every document whose numbers are in the range of doubles is read, and a name may be refused
that nobody asked for. -/
theorem documents_not_decoded :
    (nearTopDocument.Spells nearTopText ∧
        absValue nearTop < (⟨2 ^ 53 - 1, 971⟩ : Magnitude).value ∧
          ∀ s, decode read nearTopText ≠ .ok s) ∧
      unpairedDocument.Spells unpairedText ∧ ∀ s, decode read unpairedText ≠ .ok s := by
  have hnearTop : decode read nearTopText = .error .form := by decide +kernel
  have hunpaired : decode read unpairedText = .error .form := by decide +kernel
  refine ⟨⟨spells_nearTopText, absValue_nearTop_lt, ?_⟩, spells_unpairedText, ?_⟩
  · intro s
    rw [hnearTop]
    simp
  · intro s
    rw [hunpaired]
    simp

end Sample

end TrialView
