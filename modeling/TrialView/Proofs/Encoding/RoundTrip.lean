import TrialView.Proofs.Encoding.Reread
import TrialView.Scope

/-!
Parameters and requests come back as they are when they are written and read, and so do samples
whose numbers do.
-/

namespace TrialView

open Json Number Record

namespace Actor

def parts (a : Actor) : List (SlotPart Actor) :=
  slots.zip [some (.text a.name), some (.text a.actorClass), some (.text a.implementation),
    some (.text a.endpoint), bytesPart a.config]

theorem toJson_eq (a : Actor) : a.toJson = .record (members a.parts) := by
  simp [toJson, parts, slots]

theorem written_toJson (a : Actor) : Written a.toJson := by
  rw [toJson_eq]
  apply written_members
  simp only [parts, slots, List.zip_cons_cons, List.zip_nil_right, List.forall_mem_cons]
  exact ⟨by simp [Written.text], by simp [Written.text], by simp [Written.text],
    by simp [Written.text], written_bytesPart a.config, by simp⟩

theorem read_toJson (a : Actor) : read a.toJson = .ok a := by
  have hslots : a.parts.map Prod.fst = slots := rfl
  rw [toJson_eq, read, read_members _ hslots (by simp [slots]) (by simp [parts, slots])]
  simp [parts, slots, blank, fill_nil, fill_needed, fill_defaulted, fill_bytes, text_text]

end Actor

namespace Environment

def parts (e : Environment) : List (SlotPart Environment) :=
  slots.zip [some (.text e.endpoint), some (.text e.implementation), bytesPart e.config]

theorem toJson_eq (e : Environment) : e.toJson = .record (members e.parts) := by
  simp [toJson, parts, slots]

theorem written_toJson (e : Environment) : Written e.toJson := by
  rw [toJson_eq]
  apply written_members
  simp only [parts, slots, List.zip_cons_cons, List.zip_nil_right, List.forall_mem_cons]
  exact ⟨by simp [Written.text], by simp [Written.text], written_bytesPart e.config, by simp⟩

theorem read_toJson (e : Environment) : read e.toJson = .ok e := by
  have hslots : e.parts.map Prod.fst = slots := rfl
  rw [toJson_eq, read, read_members _ hslots (by simp [slots]) (by simp [parts, slots])]
  simp [parts, slots, blank, fill_nil, fill_defaulted, fill_bytes, text_text]

end Environment

namespace Params

/-- An absent environment is written as null. -/
def environmentJson (e? : Option Environment) : Json := (e?.map Environment.toJson).getD .null

theorem written_environmentJson (e? : Option Environment) : Written (environmentJson e?) := by
  cases e? with
  | none => exact .null
  | some e => exact e.written_toJson

theorem read_environmentJson (e? : Option Environment) :
    Source.optional Environment.read (environmentJson e?) = .ok e? := by
  cases e? with
  | none => rfl
  | some e =>
      change some <$> Environment.read e.toJson = _
      rw [e.read_toJson, map_ok]

def parts (p : Params) : List (SlotPart Params) :=
  slots.zip [bytesPart p.config, some (wordJson p.maxSteps), some (wordJson p.maxInactivity),
    some (environmentJson p.environment), some (.array (p.actors.map Actor.toJson))]

theorem toJson_eq (p : Params) : p.toJson = .record (members p.parts) := by
  simp [toJson, parts, slots, environmentJson]

theorem written_toJson (p : Params) : Written p.toJson := by
  rw [toJson_eq]
  apply written_members
  simp only [parts, slots, List.zip_cons_cons, List.zip_nil_right, List.forall_mem_cons]
  exact ⟨written_bytesPart p.config, by simp [written_wordJson], by simp [written_wordJson],
    by simp [written_environmentJson], by simp [written_array, Actor.written_toJson], by simp⟩

theorem read_toJson (p : Params) : read p.toJson = .ok p := by
  have hslots : p.parts.map Prod.fst = slots := rfl
  have hactors : p.actors.mapM (fun a => Actor.read a.toJson) = .ok p.actors :=
    mapM_eq_ok_self_iff.mpr fun a _ => a.read_toJson
  rw [toJson_eq, read, read_members _ hslots (by simp [slots]) (by simp [parts, slots])]
  simp [parts, slots, blank, fill_nil, fill_defaulted, fill_bytes, word32_wordJson,
    read_environmentJson, list_array, hactors]

end Params

namespace Request

def textsJson (texts : List String) : Json := .array (texts.map .text)

theorem read_textsJson (texts : List String) :
    Source.list Source.text (textsJson texts) = .ok texts := by
  have hitems : Source.list Source.text (textsJson texts) =
      texts.mapM fun text => Source.text (Json.text text) := list_array texts
  rw [hitems, mapM_eq_ok_self_iff]
  intro text _
  rfl

def parts (r : Request) : List (SlotPart Request) :=
  slots.zip [some (textsJson r.actorNames), some (textsJson r.actorClasses),
    some (textsJson r.actorImplementations), some (textsJson r.fields)]

theorem toJson_eq (r : Request) : r.toJson = .record (members r.parts) := by
  simp [toJson, parts, slots, textsJson]

theorem written_toJson (r : Request) : Written r.toJson := by
  rw [toJson_eq]
  apply written_members
  simp [parts, slots, textsJson, written_array, Written.text]

theorem read_toJson (r : Request) : read r.toJson = .ok r := by
  have hslots : r.parts.map Prod.fst = slots := rfl
  rw [toJson_eq, read, read_members _ hslots (by simp [slots]) (by simp [parts, slots])]
  simp [parts, slots, blank, fill_nil, fill_defaulted, read_textsJson]

end Request

/-- In both styles the text of a sample with finite numbers that each read back is read as the
sample, and the texts of all parameters and requests are read as these. -/
theorem written_records_read_back (style : Style) :
    (∀ s : Sample, (∀ x ∈ s.singles, x.ReadsBack) →
      Json.decode Sample.read (s.render style) = .ok s) ∧
    (∀ p : Params, Json.decode Params.read (p.toJson.render style) = .ok p) ∧
    ∀ r : Request, Json.decode Request.read (r.toJson.render style) = .ok r := by
  refine ⟨fun s hnumbers => ?_, fun p => ?_, fun r => ?_⟩
  · rw [Sample.decode_render_eq]
    exact Sample.reread_eq_ok_iff.mpr hnumbers
  · rw [decode_render p.written_toJson, p.read_toJson]
  · rw [decode_render r.written_toJson, r.read_toJson]

/-- The last tick there is, a text with characters to escape, and a tenth, minus one and a half, and
one as numbers. -/
def Sample.varied : Sample :=
  ⟨"a\"\n\x01", "\u00e9\\", 18446744073709551615, 0,
    [⟨4294967295, none, some 0, some ⟨0x3DCCCCCD⟩,
      [⟨.environment, ⟨0xBFC00000⟩, ⟨0x3F800000⟩, some 0⟩], [], [⟨.actor 4294967295, 0⟩], []⟩],
    [[0, 255]]⟩

set_option maxRecDepth 4000 in
theorem varied_read_back :
    (∀ x ∈ Sample.varied.singles, x.ReadsBack) ∧
    ∀ style, Json.decode Sample.read (Sample.varied.render style) = .ok Sample.varied := by
  have htenth : (⟨0x3DCCCCCD⟩ : Single).ReadsBack :=
    ⟨['0', '.', '1'], by decide +kernel, by decide +kernel⟩
  have hnegative : (⟨0xBFC00000⟩ : Single).ReadsBack :=
    ⟨['-', '1', '.', '5'], by decide +kernel, by decide +kernel⟩
  have hone : (⟨0x3F800000⟩ : Single).ReadsBack :=
    ⟨['1', '.', '0'], by decide +kernel, by decide +kernel⟩
  have hnumbers : ∀ x ∈ Sample.varied.singles, x.ReadsBack := by
    simp [Sample.varied, Sample.singles, Step.singles, Reward.singles, htenth, hnegative, hone]
  exact ⟨hnumbers, fun style => (written_records_read_back style).1 Sample.varied hnumbers⟩

end TrialView
