import TrialView.FieldFilter
import TrialView.Proofs.First
import Mathlib.Data.List.DropRight
import Mathlib.Data.List.Forall2

/-!
The identifiers of fields as a grammar: blanks, the opening of the long form at most once and in
capitals, the name of a field in letters of any case, blanks. A request for fields is read exactly
if all its identifiers are of this form, and comes to the fields that they denote, however often, in
whatever order and in whatever letters these are named. Otherwise its first identifier that is not
of this form is given back as it was.
-/

namespace TrialView

namespace Text

variable {a b cs : List Char}

/-- Trimming takes away nothing but blanks. -/
theorem exists_trim (cs : List Char) :
    ∃ a b, allBlank a ∧ allBlank b ∧ cs = a ++ (trim cs ++ b) := by
  have hafter : trim cs ++ (cs.dropWhile isBlank).rtakeWhile isBlank = cs.dropWhile isBlank :=
    List.rdropWhile_append_rtakeWhile
  refine ⟨cs.takeWhile isBlank, (cs.dropWhile isBlank).rtakeWhile isBlank, List.all_takeWhile,
    ?_, ?_⟩
  · rw [allBlank, List.all_eq_true]
    intro c
    exact List.mem_rtakeWhile_imp
  · rw [hafter, List.takeWhile_append_dropWhile]

/-- Blanks around a text without blanks are all that trimming takes away. -/
theorem trim_append (ha : allBlank a) (hb : allBlank b) (h : ∀ c ∈ cs, isBlank c = false) :
    trim (a ++ (cs ++ b)) = cs := by
  have hbefore : (a ++ (cs ++ b)).dropWhile isBlank = (cs ++ b).dropWhile isBlank :=
    List.dropWhile_append_of_pos (List.all_eq_true.mp ha)
  have hafter : (cs ++ b).rdropWhile isBlank = cs := by
    have hreverse : ∀ c ∈ b.reverse, isBlank c = true := by simpa [allBlank] using hb
    have hlast : cs.rdropWhile isBlank = cs := by
      rw [List.rdropWhile_eq_self_iff]
      intro hne
      simp [h _ (List.getLast_mem hne)]
    rw [List.rdropWhile, List.reverse_append, List.dropWhile_append_of_pos hreverse]
    exact hlast
  cases cs with
  | nil =>
      have hnone : b.dropWhile isBlank = [] :=
        List.dropWhile_eq_nil_iff.mpr (List.all_eq_true.mp hb)
      rw [trim, hbefore, List.nil_append, hnone]
      rfl
  | cons c cs =>
      have hfirst : (c :: cs ++ b).dropWhile isBlank = c :: cs ++ b := by
        simp [h c List.mem_cons_self]
      rw [trim, hbefore, hfirst]
      exact hafter

end Text

open Text

namespace Field

/-- Each character of a word is that of a name or, where this is a letter, its capital. -/
def Spells (word name : List Char) : Prop :=
  List.Forall₂ (fun c d => c = d ∨ c = d.toUpper) word name

/-- A text is an identifier of a field. -/
def Denotes (text : String) (f : Field) : Prop :=
  ∃ before opening word after, text.toList = before ++ (opening ++ word ++ after) ∧
    allBlank before ∧ allBlank after ∧
    (opening = [] ∨ opening = "TRIAL_SAMPLE_FIELD_".toList) ∧ Spells word f.name.toList

/-! Names. -/

theorem toLower_of_mem_name (f : Field) : ∀ d ∈ f.name.toList, d.toLower = d := by
  have hall : f.name.toList.all (fun d => d.toLower == d) = true := by cases f <;> rfl
  simpa using hall

theorem isBlank_of_mem_name (f : Field) :
    ∀ d ∈ f.name.toList, isBlank d = false ∧ isBlank d.toUpper = false := by
  have hall : f.name.toList.all (fun d => !isBlank d && !isBlank d.toUpper) = true := by
    cases f <;> rfl
  simpa using hall

theorem isBlank_of_mem_identifierStart : ∀ c ∈ identifierStart.toList, isBlank c = false := by
  have hall : identifierStart.toList.all (fun c => !isBlank c) = true := rfl
  simpa using hall

theorem ofName?_eq_some_iff {name : List Char} {f : Field} :
    ofName? name = some f ↔ f.name.toList = name := by
  constructor
  · intro h
    simpa using List.find?_some h
  · rintro rfl
    cases f <;> rfl

/-! Words. -/

theorem spells_iff {word name : List Char} (hname : ∀ d ∈ name, d.toLower = d) :
    Spells word name ↔ asciiLower word = name := by
  induction name generalizing word with
  | nil => simp [Spells, asciiLower]
  | cons d name ih =>
      rw [List.forall_mem_cons] at hname
      cases word with
      | nil => simp [Spells, asciiLower]
      | cons c word =>
          have hrest : Spells word name ↔ asciiLower word = name := ih hname.2
          simp only [Spells, asciiLower] at hrest
          simp [Spells, asciiLower, toLower_eq_iff hname.1, hrest]

section

variable {f : Field} {word : List Char}

theorem spells_name_iff : Spells word f.name.toList ↔ ofName? (asciiLower word) = some f := by
  rw [spells_iff f.toLower_of_mem_name, ofName?_eq_some_iff, eq_comm]

theorem isBlank_of_spells (h : Spells word f.name.toList) : ∀ c ∈ word, isBlank c = false := by
  intro c hc
  obtain ⟨i, hi, rfl⟩ := List.getElem_of_mem hc
  have hi' : i < f.name.toList.length := h.length_eq ▸ hi
  obtain ⟨hletter, hcapital⟩ := f.isBlank_of_mem_name _ (List.getElem_mem hi')
  have hspells : word[i] = f.name.toList[i] ∨ word[i] = f.name.toList[i].toUpper := h.get hi hi'
  rcases hspells with heq | heq
  · rw [heq, hletter]
  · rw [heq, hcapital]

/-- No name begins like the opening, in whatever letters it is written. -/
theorem isPrefixOf?_of_spells (h : Spells word f.name.toList) :
    identifierStart.toList.isPrefixOf? word = none := by
  rw [Option.eq_none_iff_forall_ne_some]
  intro rest hrest
  rw [List.isPrefixOf?_eq_some_iff_append_eq] at hrest
  subst hrest
  have hlower := (spells_iff f.toLower_of_mem_name).mp h
  -- in small letters the opening begins with a t, and no name does
  have hhead := congrArg List.head? hlower
  cases f <;> cases hhead

/-- An identifier is read as a field exactly if it denotes the field. -/
theorem parse?_eq_some_iff {text : String} : parse? text = some f ↔ Denotes text f := by
  constructor
  · intro h
    obtain ⟨before, after, hbefore, hafter, htext⟩ := exists_trim text.toList
    rw [parse?, ← spells_name_iff] at h
    cases hstart : identifierStart.toList.isPrefixOf? (trim text.toList) with
    | none =>
        rw [hstart, Option.getD_none] at h
        exact ⟨before, [], _, after, htext, hbefore, hafter, .inl rfl, h⟩
    | some rest =>
        rw [hstart, Option.getD_some] at h
        rw [← List.append_eq_of_isPrefixOf?_eq_some hstart] at htext
        exact ⟨before, _, rest, after, htext, hbefore, hafter, .inr rfl, h⟩
  · rintro ⟨before, opening, word, after, htext, hbefore, hafter, hopening, hword⟩
    have hblank : ∀ c ∈ opening ++ word, isBlank c = false := by
      intro c hc
      rcases List.mem_append.mp hc with hc | hc
      · rcases hopening with rfl | rfl
        · cases hc
        · exact isBlank_of_mem_identifierStart c hc
      · exact isBlank_of_spells hword c hc
    have htrim : trim text.toList = opening ++ word := by
      rw [htext, trim_append hbefore hafter hblank]
    have hbare : (identifierStart.toList.isPrefixOf? (opening ++ word)).getD (opening ++ word) =
        word := by
      rcases hopening with rfl | rfl
      · rw [List.nil_append, isPrefixOf?_of_spells hword, Option.getD_none]
      · have hlong : identifierStart.toList.isPrefixOf? ("TRIAL_SAMPLE_FIELD_".toList ++ word) =
            some word := List.isPrefixOf?_eq_some_iff_append_eq.mpr rfl
        rw [hlong, Option.getD_some]
    simp only [parse?, htrim, hbare]
    exact spells_name_iff.mp hword

theorem parse?_eq_none_iff {text : String} : parse? text = none ↔ ¬ ∃ f, Denotes text f := by
  simp [← parse?_eq_some_iff, Option.eq_none_iff_forall_ne_some]

/-- No word at all, the opening in small letters or twice, a letter that only Unicode makes an s,
and a blank inside. -/
example : ["", "trial_sample_field_action", "TRIAL_SAMPLE_FIELD_TRIAL_SAMPLE_FIELD_action",
    "\u017Fent_rewards", "sent rewards"].filterMap parse? = [] := by decide

end

end Field

namespace FieldFilter

/-- A field is denoted by one of the identifiers. -/
def Asked (ids : List String) (f : Field) : Prop := ∃ id ∈ ids, Field.Denotes id f

/-- Identifiers are read in full, or up to the first that names no field. -/
theorem parseFields_eq (ids : List String) :
    parseFields ids =
      match ids.find? fun id => Field.parse? id = none with
      | some id => .error ⟨id⟩
      | none => .ok (ids.filterMap Field.parse?) := by
  induction ids with
  | nil => rfl
  | cons id ids ih =>
      rw [parseFields, List.find?_cons]
      cases hparse : Field.parse? id with
      | none => rfl
      | some field =>
          rw [ih]
          simp only [reduceCtorEq, decide_false, List.filterMap_cons, hparse]
          cases ids.find? fun id => Field.parse? id = none <;> rfl

variable {ids : List String} {filter : FieldFilter}

theorem parse_eq_ok_iff :
    parse ids = .ok filter ↔
      (∀ id ∈ ids, ∃ field, Field.parse? id = some field) ∧
        ofFields (ids.filterMap Field.parse?) = filter := by
  have hall : (∀ id ∈ ids, ∃ field, Field.parse? id = some field) ↔
      ids.find? (fun id => Field.parse? id = none) = none := by
    simp [List.find?_eq_none, Option.ne_none_iff_exists']
  rw [parse, parseFields_eq, hall]
  cases ids.find? fun id => Field.parse? id = none <;> simp

theorem parse_accepts_iff :
    (∃ filter, parse ids = .ok filter) ↔ ∀ id ∈ ids, ∃ f, Field.Denotes id f := by
  simp only [parse_eq_ok_iff, Field.parse?_eq_some_iff, exists_and_left, exists_eq', and_true]

/-- The identifier of a refusal is the first that denotes no field, as it was given. -/
theorem parse_eq_error_iff {e : UnknownField} :
    parse ids = .error e ↔
      ∃ id, IsFirst (fun id => ¬ ∃ f, Field.Denotes id f) ids id ∧ e = ⟨id⟩ := by
  simp only [← Field.parse?_eq_none_iff, ← find?_eq_some_iff_isFirst]
  rw [parse, parseFields_eq]
  cases ids.find? fun id => Field.parse? id = none <;> simp [eq_comm]

/-- A filter restricts nothing if no field was asked for, and otherwise keeps those that were. -/
structure Keeps (ids : List String) (filter : FieldFilter) : Prop where
  unrestricted : filter = .unrestricted ↔ ids = []
  restricted : ∀ fields, filter = .restricted fields → ∀ f, fields.contains f ↔ Asked ids f

theorem ofFields_eq_unrestricted_iff {fields : List Field} :
    ofFields fields = .unrestricted ↔ fields = [] := by
  cases fields <;> simp [ofFields]

theorem ofFields_eq_restricted_iff {fields : List Field} {set : FieldSet} :
    ofFields fields = .restricted set ↔ fields ≠ [] ∧ .ofList fields = set := by
  cases fields <;> simp [ofFields]

theorem mem_filterMap_parse? {f : Field} : f ∈ ids.filterMap Field.parse? ↔ Asked ids f := by
  simp only [List.mem_filterMap, Asked, Field.parse?_eq_some_iff]

/-- A request in which every identifier denotes a field asks for none only if it is empty. -/
theorem eq_nil_iff_not_asked (hknown : ∀ id ∈ ids, ∃ f, Field.Denotes id f) :
    ids = [] ↔ ∀ f, ¬ Asked ids f := by
  constructor
  · rintro rfl f ⟨id, hid, -⟩
    cases hid
  · intro hnone
    rw [List.eq_nil_iff_forall_not_mem]
    intro id hid
    obtain ⟨f, hf⟩ := hknown id hid
    exact hnone f ⟨id, hid, hf⟩

theorem keeps_of_parse (h : parse ids = .ok filter) : Keeps ids filter := by
  obtain ⟨-, rfl⟩ := parse_eq_ok_iff.mp h
  constructor
  · rw [ofFields_eq_unrestricted_iff, List.eq_nil_iff_forall_not_mem,
      eq_nil_iff_not_asked (parse_accepts_iff.mp ⟨_, h⟩)]
    simp only [mem_filterMap_parse?]
  · intro set hset f
    obtain ⟨-, rfl⟩ := ofFields_eq_restricted_iff.mp hset
    rw [FieldSet.ofList, FieldSet.contains_filter, List.contains_iff_mem, mem_filterMap_parse?]

/-- Two filters for requests that denote the same fields are equal. -/
theorem Keeps.unique {ids' : List String} {filter' : FieldFilter} (h : Keeps ids filter)
    (h' : Keeps ids' filter') (hnil : ids = [] ↔ ids' = [])
    (hasked : ∀ f, Asked ids f ↔ Asked ids' f) : filter = filter' := by
  cases filter with
  | unrestricted => exact (h'.unrestricted.mpr (hnil.mp (h.unrestricted.mp rfl))).symm
  | restricted set =>
      cases filter' with
      | unrestricted =>
          have hunrestricted := h.unrestricted.mpr (hnil.mpr (h'.unrestricted.mp rfl))
          cases hunrestricted
      | restricted set' =>
          have hset : set = set' := by
            apply FieldSet.ext_contains
            intro f
            rw [Bool.eq_iff_iff, h.restricted set rfl f, h'.restricted set' rfl f]
            exact hasked f
          rw [hset]

/-- A request is read exactly if all its identifiers are of the grammar, and otherwise refused for
the first that is not. What it comes to depends on the fields that are denoted and on nothing else
of the request. -/
theorem parse_by_grammar (ids : List String) :
    ((∃ filter, parse ids = .ok filter) ↔ ∀ id ∈ ids, ∃ f, Field.Denotes id f) ∧
      (∀ e, parse ids = .error e ↔
        ∃ id, IsFirst (fun id => ¬ ∃ f, Field.Denotes id f) ids id ∧ e = ⟨id⟩) ∧
      ∀ filter, parse ids = .ok filter →
        Keeps ids filter ∧
          ∀ ids', (∀ id ∈ ids', ∃ f, Field.Denotes id f) → (∀ f, Asked ids f ↔ Asked ids' f) →
            parse ids' = .ok filter := by
  refine ⟨parse_accepts_iff, fun e => parse_eq_error_iff, ?_⟩
  intro filter hfilter
  refine ⟨keeps_of_parse hfilter, ?_⟩
  intro ids' hknown' hasked
  obtain ⟨filter', hfilter'⟩ := parse_accepts_iff.mpr hknown'
  have hknown := parse_accepts_iff.mp ⟨filter, hfilter⟩
  have hnil : ids = [] ↔ ids' = [] := by
    rw [eq_nil_iff_not_asked hknown, eq_nil_iff_not_asked hknown']
    simp only [hasked]
  rw [hfilter', (keeps_of_parse hfilter).unique (keeps_of_parse hfilter') hnil hasked]

/-- Two fields, one of them twice, with blanks, in capitals and by the long form. -/
def spelled : List String := ["\tTRIAL_SAMPLE_FIELD_Action\u3000", "reward", "ACTION "]

/-- The same two fields by their names, in the other order. -/
def named : List String := ["reward", "action"]

def actionAndReward : FieldFilter :=
  .restricted ⟨false, true, true, false, false, false, false⟩

theorem spelled_parse_by_grammar :
    Keeps spelled actionAndReward ∧ parse named = .ok actionAndReward := by
  have hspelled : parse spelled = .ok actionAndReward := by decide
  have hnamed : ∀ id ∈ named, ∃ f, Field.Denotes id f :=
    parse_accepts_iff.mp ⟨actionAndReward, by decide⟩
  have hasked (f : Field) : Asked spelled f ↔ Asked named f := by
    rw [← mem_filterMap_parse?, ← mem_filterMap_parse?]
    cases f <;> decide
  obtain ⟨hkeeps, hother⟩ := (parse_by_grammar spelled).2.2 actionAndReward hspelled
  exact ⟨hkeeps, hother named hnamed hasked⟩

end FieldFilter

end TrialView
