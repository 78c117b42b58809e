import TrialView.Proofs.Encoding.Record
import TrialView.Proofs.Encoding.Tree
import Mathlib.Data.List.Forall2
import Mathlib.Data.List.Perm.Basic
import Mathlib.Data.List.Nodup
import Mathlib.Data.List.Pairwise

/-!
Records in documents. A value holds something, or nothing, for each part of a record: an object by
the names of its members, none of which may be a name of the record twice, and an array by its
items, of which some at the end may be left off. A record is read from a value exactly if what the
value holds for its parts can be put in place, with nothing missing that is required. It does not
matter in which order the members of an object stand, since different slots put their values in
different places.
-/

namespace TrialView

namespace Json

/-- The name of a member, unless it is half of a surrogate pair. -/
def name? : Json → Option String
  | .text s => some s
  | _ => none

/-- The values that members have under a name. -/
def valuesOf (name : String) (ms : List (Json × Json)) : List Json :=
  (ms.filter fun m => m.1.name? = some name).map Prod.snd

/-- What a value holds under the names of a record. An object may have more members, but each of
the names at most once. An array holds its items under the names in their order, and may be short. -/
inductive Holds (names : List String) : Json → (String → Option Json) → Prop
  | keyed {ms : List (Json × Json)} (hnames : ∀ m ∈ ms, m.1.name? ≠ none)
      (honce : ∀ name ∈ names, (valuesOf name ms).length ≤ 1) :
      Holds names (.object ms) fun name => (valuesOf name ms).head?
  | listed {vs : List Json} (hlength : vs.length ≤ names.length) :
      Holds names (.array vs) fun name => vs[names.idxOf name]?

section

variable {names : List String} {v : Json} {found : String → Option Json} {ms : List (Json × Json)}

theorem mem_valuesOf {name : String} :
    v ∈ valuesOf name ms ↔ ∃ k, (k, v) ∈ ms ∧ k.name? = some name := by
  simp [valuesOf]

/-- Whatever a value holds is part of it. -/
theorem Holds.proper (h : v.Holds names found) (hv : v.Proper) (name : String) :
    ∀ w ∈ found name, w.Proper := by
  intro w hw
  cases h with
  | keyed _ _ =>
      obtain ⟨k, hm, -⟩ := mem_valuesOf.mp (List.mem_of_head? hw)
      cases hv with
      | object _ hvalues => exact hvalues _ hm
  | listed _ =>
      cases hv with
      | array hvs => exact hvs w (List.mem_of_getElem? hw)

end

end Json

namespace Slot

variable {α β γ : Type}

/-- Two slots put their values in different places. -/
def Commutes (s t : Slot Json α) : Prop :=
  ∀ v w a, ((s.put v a).toOption.bind fun b => (t.put w b).toOption) =
    (t.put w a).toOption.bind fun b => (s.put v b).toOption

instance : Std.Symm (Commutes (α := α)) where
  symm _ _ h := fun v w a => (h w v a).symm

/-- Two slots that set parts of a record which do not depend on each other. -/
theorem commutes_of_set {s t : Slot Json α} {readS : Json → Except Fault β}
    {readT : Json → Except Fault γ} {setS : β → α → α} {setT : γ → α → α}
    (hs : s.put = fun v a => do return setS (← readS v) a)
    (ht : t.put = fun v a => do return setT (← readT v) a)
    (hset : ∀ b c a, setT c (setS b a) = setS b (setT c a)) : s.Commutes t := by
  intro v w a
  rw [hs, ht]
  cases hv : readS v <;> cases hw : readT w <;>
    simp [hv, hw, pure, Except.pure, Except.toOption, hset]

end Slot

namespace Record

open Json

variable {α : Type}

/-- Slots that can be told apart, and that do not get in each other's way. -/
structure Independent (slots : List (Slot Json α)) : Prop where
  nodup : (slots.map (·.name)).Nodup
  commute : slots.Pairwise Slot.Commutes

/-- Nothing that is required is missing from the parts, and they can be put in place. -/
def Fills (parts : List (SlotPart α)) (a b : α) : Prop :=
  (∀ part ∈ parts, part.1.required = true → part.2 ≠ none) ∧ fill parts a = .ok b

/-- The slots of a record, with what a document holds under their names. -/
def partsOf (slots : List (Slot Json α)) (found : String → Option Json) : List (SlotPart α) :=
  slots.map fun slot => (slot, found slot.name)

/-- Puts a value in place, unless something has failed before. -/
def place (a? : Option α) (p : Slot Json α × Json) : Option α :=
  a?.bind fun a => (p.1.put p.2 a).toOption

/-- The parts that a document holds. -/
def present (parts : List (SlotPart α)) : List (Slot Json α × Json) :=
  parts.filterMap fun part => part.2.map (part.1, ·)

/-- The members that slots have the names of. -/
def known (slots : List (Slot Json α)) (ms : List (Json × Json)) : List (Slot Json α × Json) :=
  ms.filterMap fun m => m.1.name?.bind fun name => (slots.find? (·.name == name)).map (·, m.2)

section

variable {slots : List (Slot Json α)} {parts : List (SlotPart α)} {ms : List (Json × Json)}
  {a b blank : α}

theorem foldl_place_none (ps : List (Slot Json α × Json)) : ps.foldl place none = none := by
  induction ps with
  | nil => rfl
  | cons p ps ih => exact ih

theorem fill_eq_ok_iff : fill parts a = .ok b ↔ (present parts).foldl place (some a) = some b := by
  induction parts generalizing a with
  | nil => simp [fill, present]
  | cons part parts ih =>
      obtain ⟨slot, v?⟩ := part
      cases v? with
      | none => exact ih
      | some v =>
          have hpresent : present ((slot, some v) :: parts) = (slot, v) :: present parts := rfl
          rw [fill, hpresent, List.foldl_cons]
          cases hput : slot.put v a with
          | error fault =>
              have hplace : place (some a) (slot, v) = none := by
                simp [place, hput, Except.toOption]
              rw [hplace, foldl_place_none]
              simp
          | ok c =>
              have hplace : place (some a) (slot, v) = some c := by
                simp [place, hput, Except.toOption]
              rw [hplace, ok_bind, ih]

/-- By induction on the members; `seen` holds the names of those before. -/
theorem readMembers_eq_ok_iff {seen seen' : List String} (hwhole : ∀ m ∈ ms, m.2.isWhole = true) :
    readMembers slots (ms.map fun m => (memberName m.1, m.2)) seen a = .ok (seen', b) ↔
      (∀ m ∈ ms, m.1.name? ≠ none) ∧ ((known slots ms).map (·.1.name)).Nodup ∧
        (∀ p ∈ known slots ms, p.1.name ∉ seen) ∧
          ((known slots ms).map (·.1.name)).reverse ++ seen = seen' ∧
            (known slots ms).foldl place (some a) = some b := by
  induction ms generalizing seen a with
  | nil => simp [readMembers, known]
  | cons m ms ih =>
      obtain ⟨k, v⟩ := m
      rw [List.forall_mem_cons] at hwhole
      rw [List.forall_mem_cons, List.map_cons, readMembers]
      cases hk : k.name? with
      | none =>
          have hname : memberName k = .error .form := by
            cases k with
            | text s => cases hk
            | _ => rfl
          simp [hname]
      | some name =>
          have hname : memberName k = .ok name := by
            cases k with
            | text s => exact congrArg Except.ok (Option.some.inj hk)
            | _ => cases hk
          rw [hname, ok_bind]
          cases hslot : slots.find? (·.name == name) with
          | none =>
              have hknown : known slots ((k, v) :: ms) = known slots ms := by
                simp [known, hk, hslot]
              have hskip : Source.skip v = (.ok () : Except Fault Unit) := if_pos hwhole.1
              simp only [hskip, ok_bind, ih hwhole.2, hknown]
              simp
          | some slot =>
              have hsame : slot.name = name := by simpa using List.find?_some hslot
              have hknown : known slots ((k, v) :: ms) = (slot, v) :: known slots ms := by
                simp [known, hk, hslot]
              simp only [hknown, List.map_cons, List.nodup_cons, List.forall_mem_cons,
                List.reverse_cons, List.append_assoc, List.singleton_append, List.foldl_cons, hsame]
              by_cases hseen : name ∈ seen
              · simp [hseen]
              cases hput : slot.put v a with
              | error fault =>
                  have hplace : place (some a) (slot, v) = none := by
                    simp [place, hput, Except.toOption]
                  simp [hseen, hplace, foldl_place_none]
              | ok c =>
                  have hplace : place (some a) (slot, v) = some c := by
                    simp [place, hput, Except.toOption]
                  have hfresh : (∀ p ∈ known slots ms, p.1.name ∉ name :: seen) ↔
                      name ∉ (known slots ms).map (·.1.name) ∧
                        ∀ p ∈ known slots ms, p.1.name ∉ seen := by
                    simp only [List.mem_cons, not_or, List.mem_map, not_exists, not_and]
                    exact ⟨fun h => ⟨fun p hp => (h p hp).1, fun p hp => (h p hp).2⟩,
                      fun h p hp => ⟨h.1 p hp, h.2 p hp⟩⟩
                  simp only [if_neg hseen, ok_bind, ih hwhole.2, hfresh, hplace]
                  constructor
                  · rintro ⟨hnames, hnodup, ⟨hnew, hrest⟩, hseen', hfold⟩
                    exact ⟨⟨by simp, hnames⟩, ⟨hnew, hnodup⟩, ⟨hseen, hrest⟩, hseen', hfold⟩
                  · rintro ⟨⟨-, hnames⟩, ⟨hnew, hnodup⟩, ⟨-, hrest⟩, hseen', hfold⟩
                    exact ⟨hnames, hnodup, ⟨hnew, hrest⟩, hseen', hfold⟩

/-- A member with a name of the record is one of the values under the name. -/
theorem mem_known (hnodup : (slots.map (·.name)).Nodup) {slot : Slot Json α} {v : Json} :
    (slot, v) ∈ known slots ms ↔ slot ∈ slots ∧ v ∈ valuesOf slot.name ms := by
  rw [mem_valuesOf]
  simp only [known, List.mem_filterMap, Option.bind_eq_some_iff, Option.map_eq_some_iff,
    Prod.mk.injEq]
  constructor
  · rintro ⟨⟨k, w⟩, hm, name, hname, found, hfound, rfl, rfl⟩
    have hsame : found.name = name := by simpa using List.find?_some hfound
    exact ⟨List.mem_of_find?_eq_some hfound, k, hm, hsame ▸ hname⟩
  · rintro ⟨hslot, k, hm, hname⟩
    exact ⟨(k, v), hm, slot.name, hname, slot, find?_name hnodup hslot, rfl, rfl⟩

theorem map_name_known :
    (known slots ms).map (·.1.name) =
      (ms.filterMap fun m => m.1.name?).filter fun name => name ∈ slots.map (·.name) := by
  have hcons {m : Json × Json} {ms : List (Json × Json)} {name : String}
      (hk : m.1.name? = some name) : ((m :: ms).filterMap fun m => m.1.name?) =
        name :: ms.filterMap fun m => m.1.name? :=
    List.filterMap_cons_some hk
  induction ms with
  | nil => rfl
  | cons m ms ih =>
      cases hk : m.1.name? with
      | none => simpa [known, hk] using ih
      | some name =>
          cases hslot : slots.find? (·.name == name) with
          | none =>
              have hother : name ∉ slots.map (·.name) := by
                simpa [List.find?_eq_none] using hslot
              rw [hcons hk, List.filter_cons_of_neg (by simpa using hother), ← ih]
              simp [known, hk, hslot]
          | some slot =>
              have hsame : slot.name = name := by simpa using List.find?_some hslot
              have hname : name ∈ slots.map (·.name) :=
                hsame ▸ List.mem_map_of_mem (List.mem_of_find?_eq_some hslot)
              rw [hcons hk, List.filter_cons_of_pos (by simpa using hname), ← ih]
              simp [known, hk, hslot, hsame]

/-- No name of the record is repeated exactly if each has at most one value. -/
theorem nodup_known_iff :
    ((known slots ms).map (·.1.name)).Nodup ↔
      ∀ name ∈ slots.map (·.name), (valuesOf name ms).length ≤ 1 := by
  have hcount (name : String) :
      (ms.filterMap fun m => m.1.name?).count name = (valuesOf name ms).length := by
    rw [valuesOf, List.length_map, ← List.countP_eq_length_filter, List.count,
      List.countP_filterMap]
    congr 1
    funext m
    cases hk : m.1.name? with
    | none => rfl
    | some s =>
        rw [Bool.eq_iff_iff]
        simp
  rw [map_name_known, List.nodup_iff_count_le_one]
  constructor
  · intro h name hname
    have hle := h name
    rwa [List.count_filter (by simpa using hname), hcount] at hle
  · intro h name
    by_cases hname : name ∈ slots.map (·.name)
    · rw [List.count_filter (by simpa using hname), hcount]
      exact h name hname
    · rw [List.count_eq_zero.mpr fun hmem => hname (by simpa using (List.mem_filter.mp hmem).2)]
      exact Nat.zero_le 1

/-- What is present of what an object holds for a record are the members with its names. -/
theorem perm_known (hnodup : (slots.map (·.name)).Nodup)
    (honce : ∀ name ∈ slots.map (·.name), (valuesOf name ms).length ≤ 1) :
    (known slots ms).Perm
      (present (partsOf slots fun name => (valuesOf name ms).head?)) := by
  have hknown : (known slots ms).Nodup := (nodup_known_iff.mpr honce).of_map _
  have hpresent : (present (partsOf slots fun name => (valuesOf name ms).head?)).Nodup := by
    rw [present, partsOf, List.filterMap_map]
    apply List.Nodup.filterMap _ (hnodup.of_map _)
    intro s t p hs ht
    obtain ⟨v, -, rfl⟩ := Option.map_eq_some_iff.mp hs
    obtain ⟨w, -, hsame⟩ := Option.map_eq_some_iff.mp ht
    exact (congrArg Prod.fst hsame).symm
  rw [List.perm_ext_iff_of_nodup hknown hpresent]
  rintro ⟨slot, v⟩
  rw [mem_known hnodup]
  have hmem : (slot, v) ∈ present (partsOf slots fun name => (valuesOf name ms).head?) ↔
      slot ∈ slots ∧ (valuesOf slot.name ms).head? = some v := by
    simp only [present, partsOf, List.mem_filterMap, List.mem_map]
    constructor
    · rintro ⟨_, ⟨s, hs, rfl⟩, hv⟩
      obtain ⟨w, hw, hsame⟩ := Option.map_eq_some_iff.mp hv
      cases hsame
      exact ⟨hs, hw⟩
    · rintro ⟨hs, hv⟩
      exact ⟨_, ⟨slot, hs, rfl⟩, by simp [hv]⟩
  rw [hmem, and_congr_right_iff]
  intro hslot
  have hle := honce slot.name (List.mem_map_of_mem hslot)
  match valuesOf slot.name ms, hle with
  | [], _ => simp
  | [w], _ => simp [eq_comm]

/-- Values of different slots may be put in place in any order. -/
theorem foldl_place_perm (hslots : Independent slots) {ps qs : List (Slot Json α × Json)}
    (hperm : ps.Perm qs) (hmem : ∀ p ∈ ps, p.1 ∈ slots) (honce : (ps.map (·.1.name)).Nodup)
    (a? : Option α) : ps.foldl place a? = qs.foldl place a? := by
  apply hperm.foldl_eq'
  intro p hp q hq a?
  by_cases hsame : p.1.name = q.1.name
  · rw [List.inj_on_of_nodup_map honce hp hq hsame]
  · have hne : p.1 ≠ q.1 := by
      intro hslot
      exact hsame (congrArg Slot.name hslot)
    have hcommute := hslots.commute.forall (hmem p hp) (hmem q hq) hne
    cases a? with
    | none => rfl
    | some a => exact hcommute p.2 q.2 a

theorem read_object_eq_ok_iff (expected : String) :
    Record.read expected slots blank (.object ms) = .ok a ↔
      ∃ seen, readMembers slots (ms.map fun m => (memberName m.1, m.2)) [] blank = .ok (seen, a) ∧
        ∀ slot ∈ slots, slot.required = true → slot.name ∈ seen := by
  have hshape : Source.shape expected (Json.object ms) =
      .ok (.keyed (ms.map fun m => (memberName m.1, m.2))) := rfl
  rw [Record.read, hshape, ok_bind]
  dsimp only
  cases hread : readMembers slots (ms.map fun m => (memberName m.1, m.2)) [] blank with
  | error fault => simp
  | ok result =>
      obtain ⟨seen, b⟩ := result
      have hthere : (∀ slot ∈ slots, slot.required = true → slot.name ∈ seen) ↔
          (slots.find? fun slot => slot.required && !seen.contains slot.name) = none := by
        simp [List.find?_eq_none]
      rw [ok_bind]
      cases hfind : slots.find? fun slot => slot.required && !seen.contains slot.name with
      | none =>
          dsimp only
          constructor
          · intro h
            cases h
            exact ⟨seen, rfl, hthere.mpr hfind⟩
          · rintro ⟨_, hsame, -⟩
            cases hsame
            rfl
      | some slot =>
          dsimp only
          refine iff_of_false (by simp [throw, throwThe, MonadExceptOf.throw]) ?_
          rintro ⟨_, hsame, hall⟩
          cases hsame
          rw [hthere.mp hall] at hfind
          cases hfind

theorem read_keyed_iff (expected : String) (hslots : Independent slots)
    (hwhole : ∀ m ∈ ms, m.2.isWhole = true) :
    Record.read expected slots blank (.object ms) = .ok a ↔
      ∃ found, (Json.object ms).Holds (slots.map (·.name)) found ∧
        Fills (partsOf slots found) blank a := by
  have hplaced (honce : ∀ name ∈ slots.map (·.name), (valuesOf name ms).length ≤ 1) :
      (known slots ms).foldl place (some blank) = some a ↔
        fill (partsOf slots fun name => (valuesOf name ms).head?) blank = .ok a := by
    rw [fill_eq_ok_iff, foldl_place_perm hslots (perm_known hslots.nodup honce) _
      (nodup_known_iff.mpr honce)]
    rintro ⟨slot, v⟩ hp
    exact ((mem_known hslots.nodup).mp hp).1
  have hgiven (slot : Slot Json α) (hslot : slot ∈ slots) :
      slot.name ∈ (known slots ms).map (·.1.name) ↔ (valuesOf slot.name ms).head? ≠ none := by
    rw [ne_eq, List.head?_eq_none_iff, List.mem_map]
    constructor
    · rintro ⟨⟨found, v⟩, hp, hname⟩ hnone
      obtain ⟨-, hv⟩ := (mem_known hslots.nodup).mp hp
      rw [show found.name = slot.name from hname, hnone] at hv
      cases hv
    · intro hsome
      obtain ⟨v, hv⟩ := List.exists_mem_of_ne_nil _ hsome
      exact ⟨(slot, v), (mem_known hslots.nodup).mpr ⟨hslot, hv⟩, rfl⟩
  simp only [read_object_eq_ok_iff, readMembers_eq_ok_iff hwhole, nodup_known_iff]
  constructor
  · rintro ⟨seen, ⟨hnames, honce, -, rfl, hfold⟩, hthere⟩
    refine ⟨_, .keyed hnames honce, ?_, (hplaced honce).mp hfold⟩
    simp only [partsOf, List.forall_mem_map]
    intro slot hslot hrequired
    apply (hgiven slot hslot).mp
    simpa using hthere slot hslot hrequired
  · rintro ⟨found, hholds, hfills⟩
    cases hholds with
    | keyed hnames honce =>
        refine ⟨_, ⟨hnames, honce, by simp, rfl, (hplaced honce).mpr hfills.2⟩, ?_⟩
        intro slot hslot hrequired
        have hpart := hfills.1 _ (List.mem_map_of_mem hslot) hrequired
        simpa using (hgiven slot hslot).mpr hpart

theorem fills_nil : Fills ([] : List (SlotPart α)) a b ↔ a = b := by
  simp [Fills, fill]

theorem fills_some {slot : Slot Json α} {v : Json} :
    Fills ((slot, some v) :: parts) a b ↔ ∃ c, slot.put v a = .ok c ∧ Fills parts c b := by
  rw [Fills, List.forall_mem_cons, fill]
  cases hput : slot.put v a with
  | error fault => simp
  | ok c => simp [Fills]

theorem fills_none {slot : Slot Json α} :
    Fills ((slot, none) :: parts) a b ↔ slot.required = false ∧ Fills parts a b := by
  rw [Fills, Fills, List.forall_mem_cons, fill]
  simp [and_assoc]

theorem fills_absent {found : String → Option Json}
    (h : ∀ slot ∈ slots, found slot.name = none) :
    Fills (partsOf slots found) a b ↔ (∀ slot ∈ slots, slot.required = false) ∧ a = b := by
  induction slots with
  | nil => simp [partsOf, fills_nil]
  | cons slot slots ih =>
      rw [List.forall_mem_cons] at h
      rw [partsOf, List.map_cons, h.1, fills_none, ← partsOf, ih h.2, List.forall_mem_cons,
        and_assoc]

/-- The first slot takes the first item, and the others take the rest. -/
theorem partsOf_listed {slot : Slot Json α} (hnodup : ((slot :: slots).map (·.name)).Nodup)
    (v : Json) (vs : List Json) :
    (partsOf (slot :: slots) fun name => (v :: vs)[((slot :: slots).map (·.name)).idxOf name]?) =
      (slot, some v) :: partsOf slots fun name => vs[(slots.map (·.name)).idxOf name]? := by
  rw [List.map_cons, List.nodup_cons] at hnodup
  rw [partsOf, List.map_cons, List.map_cons, List.idxOf_cons_self, List.getElem?_cons_zero]
  refine congrArg _ (List.map_congr_left fun other hother => ?_)
  have hne : slot.name ≠ other.name := by
    intro hsame
    exact hnodup.1 (List.mem_map.mpr ⟨other, hother, hsame.symm⟩)
  rw [List.idxOf_cons_ne _ hne, List.getElem?_cons_succ]

/-- By induction on the slots. Only the parts behind the last item are left off. -/
theorem readItems_eq_ok_iff (expected : String) (size taken : Nat) {vs : List Json}
    (hnodup : (slots.map (·.name)).Nodup) :
    readItems expected size slots taken vs a = .ok b ↔
      vs.length ≤ slots.length ∧
        Fills (partsOf slots fun name => vs[(slots.map (·.name)).idxOf name]?) a b := by
  induction slots generalizing taken vs a with
  | nil =>
      cases vs with
      | nil => simp [readItems, partsOf, Fills, fill]
      | cons v vs => simp [readItems]
  | cons slot slots ih =>
      cases vs with
      | nil =>
          rw [fills_absent fun _ _ => List.getElem?_nil, readItems]
          · cases hfind : (slot :: slots).findIdx? (·.required) with
            | none =>
                have hnone : ∀ s ∈ slot :: slots, s.required = false :=
                  List.findIdx?_eq_none_iff.mp hfind
                simp only [Except.ok.injEq, and_iff_right hnone, List.length_nil, Nat.zero_le,
                  true_and]
            | some i =>
                refine iff_of_false (by simp) ?_
                rintro ⟨-, hnone, -⟩
                rw [List.findIdx?_eq_none_iff.mpr hnone] at hfind
                cases hfind
          · simp
      | cons v vs =>
          rw [readItems, partsOf_listed hnodup, fills_some, List.length_cons, List.length_cons,
            Nat.add_le_add_iff_right]
          cases hput : slot.put v a with
          | error fault => simp
          | ok c => simp [ih _ (List.nodup_cons.mp hnodup).2]

theorem read_listed_iff (expected : String) (hslots : Independent slots) {vs : List Json} :
    Record.read expected slots blank (.array vs) = .ok a ↔
      ∃ found, (Json.array vs).Holds (slots.map (·.name)) found ∧
        Fills (partsOf slots found) blank a := by
  have hshape : Source.shape expected (Json.array vs) = .ok (.listed vs) := rfl
  rw [Record.read, hshape, ok_bind]
  dsimp only
  rw [readItems_eq_ok_iff _ _ _ hslots.nodup]
  constructor
  · rintro ⟨hlength, hfills⟩
    exact ⟨_, .listed (by rwa [List.length_map]), hfills⟩
  · rintro ⟨found, hholds, hfills⟩
    cases hholds with
    | listed hlength => exact ⟨by rwa [List.length_map] at hlength, hfills⟩

/-- A record is read from a value by what the value holds for its parts. -/
theorem read_eq_ok_iff (expected : String) (hslots : Independent slots) {v : Json} (hv : v.Proper) :
    Record.read expected slots blank v = .ok a ↔
      ∃ found, v.Holds (slots.map (·.name)) found ∧ Fills (partsOf slots found) blank a := by
  have hleaf (hshape : Source.shape expected v = v.mismatch expected)
      (hholds : ∀ found, ¬ v.Holds (slots.map (·.name)) found) :
      Record.read expected slots blank v = .ok a ↔
        ∃ found, v.Holds (slots.map (·.name)) found ∧ Fills (partsOf slots found) blank a := by
    obtain ⟨fault, hfault⟩ := exists_mismatch_eq v expected
    rw [Record.read, hshape, hfault, error_bind]
    simp [hholds]
  cases hv with
  | null => exact hleaf rfl (by rintro _ ⟨⟩)
  | bool _ => exact hleaf rfl (by rintro _ ⟨⟩)
  | number _ => exact hleaf rfl (by rintro _ ⟨⟩)
  | text _ => exact hleaf rfl (by rintro _ ⟨⟩)
  | unpaired => exact hleaf rfl (by rintro _ ⟨⟩)
  | array _ => exact read_listed_iff expected hslots
  | object _ hvalues => exact read_keyed_iff expected hslots fun m hm => (hvalues m hm).isWhole

end

end Record

end TrialView
