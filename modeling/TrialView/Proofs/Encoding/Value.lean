import TrialView.Proofs.Encoding.Record
import TrialView.Proofs.Encoding.Written
import TrialView.Roster.Form

/-!
Written values that are no records: words, bytes, peers and single-precision numbers. All of them
are written as JSON. Words, bytes and peers are read back as themselves. So is a number whose text
is read as the number; one that is not finite is written as null, which no number is read from.
-/

namespace TrialView

open Json Number Record

section

theorem written_ofNat (n : Nat) : Written (Json.ofNat n) :=
  .number (.positive (isUnsigned_natText n))

theorem written_wordJson (n : UInt32) : Written (wordJson n) := written_ofNat n.toNat

theorem written_ofInt (n : Int) : Written (Json.ofInt n) := .number (isLexeme_intText n)

theorem written_ofSingle (x : Single) : Written (Json.ofSingle x) := by
  unfold Json.ofSingle
  split
  · next cs htext => exact .number (isLexeme_text? htext)
  · exact .null

/-- A record is written as JSON if what its slots hold is. -/
theorem written_members {α : Type} {parts : List (SlotPart α)}
    (h : ∀ part ∈ parts, ∀ v ∈ part.2, Written v) : Written (.record (members parts)) := by
  refine .object (fun m hm => ?_) fun m hm => ?_
  · obtain ⟨⟨name, v⟩, _, rfl⟩ := List.mem_map.mp hm
    exact ⟨name, rfl⟩
  · obtain ⟨⟨name, v⟩, hmember, rfl⟩ := List.mem_map.mp hm
    obtain ⟨slot, hpart, _⟩ := mem_members.mp hmember
    exact h _ hpart v rfl

theorem written_array {α : Type} {toJson : α → Json} {as : List α}
    (h : ∀ a ∈ as, Written (toJson a)) : Written (.array (as.map toJson)) := by
  refine .array fun v hv => ?_
  obtain ⟨a, ha, rfl⟩ := List.mem_map.mp hv
  exact h a ha

theorem written_ofBytes (bs : List UInt8) : Written (Json.ofBytes bs) :=
  written_array fun b _ => written_ofNat b.toNat

theorem written_map {α : Type} {toJson : α → Json} (h : ∀ a, Written (toJson a)) (a? : Option α) :
    ∀ v ∈ a?.map toJson, Written v := by
  intro v hv
  obtain ⟨a, _, rfl⟩ := Option.map_eq_some_iff.mp hv
  exact h a

theorem written_listPart {α : Type} {toJson : α → Json} (h : ∀ a, Written (toJson a))
    (as : List α) : ∀ v ∈ listPart toJson as, Written v := by
  intro v hv
  cases as with
  | nil => cases hv
  | cons a as =>
      obtain rfl := Option.some.inj hv
      exact written_array fun a _ => h a

theorem word32_wordJson (n : UInt32) : Source.word32 (wordJson n) = .ok n := by
  have hread : Source.natural UInt32.size "u32" (wordJson n) = .ok n.toNat :=
    readNatural_ofNat "u32" n.toNat_lt (by decide)
  rw [Source.word32, hread, ok_bind, UInt32.ofNat_toNat]
  rfl

theorem word64_ofNat (n : UInt64) : Source.word64 (Json.ofNat n.toNat) = .ok n := by
  have hread : Source.natural UInt64.size "u64" (Json.ofNat n.toNat) = .ok n.toNat :=
    readNatural_ofNat "u64" n.toNat_lt (by decide)
  rw [Source.word64, hread, ok_bind, UInt64.ofNat_toNat]
  rfl

theorem text_text (s : String) : Source.text (Json.text s) = .ok s := rfl

theorem byte_ofNat (b : UInt8) : Source.byte (Json.ofNat b.toNat) = .ok b := by
  have hread : Source.natural UInt8.size "u8" (Json.ofNat b.toNat) = .ok b.toNat :=
    readNatural_ofNat "u8" b.toNat_lt (by decide)
  rw [Source.byte, hread, ok_bind, UInt8.ofNat_toNat]
  rfl

theorem bytes_ofBytes (bs : List UInt8) : Source.bytes (Json.ofBytes bs) = .ok bs := by
  have hitems : Source.list Source.byte (Json.ofBytes bs) =
      bs.mapM fun b => Source.byte (Json.ofNat b.toNat) := list_array bs
  rw [Source.bytes, hitems, mapM_eq_ok_self_iff]
  intro b _
  exact byte_ofNat b

/-- Bytes as a part: they are left out when there are none. -/
def bytesPart : List UInt8 → Option Json
  | [] => none
  | b :: bs => some (.ofBytes (b :: bs))

@[simp] theorem members_bytes {α : Type} {slot : Slot Json α} {parts : List (SlotPart α)}
    (bs : List UInt8) :
    members ((slot, bytesPart bs) :: parts) = bytesMember slot.name bs ++ members parts := by
  cases bs <;> rfl

theorem written_bytesPart (bs : List UInt8) : ∀ v ∈ bytesPart bs, Written v := by
  intro v hv
  cases bs with
  | nil => cases hv
  | cons b bs =>
      obtain rfl := Option.some.inj hv
      exact written_ofBytes _

theorem fill_bytes {α : Type} {name : String} {set : List UInt8 → α → α} {parts : List (SlotPart α)}
    {a : α} (bs : List UInt8) (hset : set [] a = a) :
    fill ((.defaulted name Source.bytes set, bytesPart bs) :: parts) a = fill parts (set bs a) := by
  cases bs with
  | nil =>
      change fill parts a = fill parts (set [] a)
      rw [hset]
  | cons b bs => rw [bytesPart, fill_defaulted, bytes_ofBytes, ok_bind]

theorem rereadOption_word32 (n? : Option UInt32) :
    rereadOption Source.word32 wordJson n? = .ok n? :=
  rereadOption_eq_ok (fun _ => rfl) word32_wordJson n?

end

namespace Peer

theorem written_toJson (p : Peer) : Written p.toJson := written_ofInt p.toInt

theorem read_toJson (p : Peer) : read p.toJson = .ok p := by
  have hhalf : wordLimit / 2 = 2 ^ 63 := by decide
  have hrange : -(2 ^ 63 : Int) ≤ p.toInt ∧ p.toInt < 2 ^ 63 := by
    cases p with
    | environment => decide
    | actor index =>
        have hindex := index.toNat_lt
        simp only [toInt]
        omega
  have hread : Source.integer p.toJson = .ok p.toInt :=
    readInteger_ofInt (by rw [hhalf]; exact hrange.1) (by rw [hhalf]; exact hrange.2)
  rw [read, hread, ok_bind, ofInt?_toInt]
  rfl

end Peer

namespace Number.Single

/-- A finite number that is what its text is read as. -/
def ReadsBack (x : Single) : Prop :=
  ∃ cs, x.text? = some cs ∧ Json.decode Source.single cs = .ok x

/-- What a number comes back as. -/
def reread (x : Single) : Except Fault Single := Source.single (Json.ofSingle x)

theorem ofSingle_of_text? {x : Single} {cs : List Char} (h : x.text? = some cs) :
    Json.ofSingle x = .number cs := by
  rw [Json.ofSingle, h]

theorem ofSingle_eq_null {x : Single} (h : x.text? = none) : Json.ofSingle x = .null := by
  rw [Json.ofSingle, h]

/-- Null is not read as a number. -/
theorem single_null : (Source.single Json.null : Except Fault Single) =
    .error (.data "invalid type: null, expected f32") := rfl

theorem reread_eq_ok_iff {x : Single} : x.reread = .ok x ↔ x.ReadsBack := by
  unfold ReadsBack reread
  cases htext : x.text? with
  | none => simp [ofSingle_eq_null htext, single_null]
  | some cs =>
      have hread : Json.decode Source.single cs = Source.single (Json.number cs) :=
        decode_render (.number (isLexeme_text? htext)) .compact Source.single
      simp [ofSingle_of_text? htext, hread]

/-- An optional number that is not finite comes back as absent, and not as itself. -/
theorem rereadOption_eq_ok_iff {x? : Option Single} :
    rereadOption Source.single Json.ofSingle x? = .ok x? ↔ ∀ x ∈ x?.toList, x.ReadsBack := by
  cases x? with
  | none => simp [rereadOption]
  | some x =>
      have hmem : (∀ y ∈ (some x).toList, y.ReadsBack) ↔ x.reread = .ok x := by
        simp [reread_eq_ok_iff]
      rw [hmem, rereadOption, reread]
      cases htext : x.text? with
      | none =>
          have habsent : Source.optional Source.single Json.null = .ok none := rfl
          simp [ofSingle_eq_null htext, single_null, habsent]
      | some cs =>
          have hthere : Source.optional Source.single (Json.number cs) =
              some <$> Source.single (Json.number cs) := rfl
          rw [ofSingle_of_text? htext, hthere]
          cases (Source.single (Json.number cs) : Except Fault Single) <;> simp

end Number.Single

end TrialView
