import TrialView.Json.Source
import TrialView.Sample.Form

/-!
Written records. A record is written as an object with some of its slots as members, in their order.
It is read by putting these members in place one after the other, and nothing is found to be missing
or given twice, if the slots have different names and the needed ones are all there. What is left
out keeps its value, so an optional value and a list are read alike whether they are left out or
written.
-/

namespace TrialView

section

variable {ε α β : Type}

@[simp] theorem ok_bind (a : α) (f : α → Except ε β) : (Except.ok a >>= f) = f a := rfl

@[simp] theorem error_bind (e : ε) (f : α → Except ε β) : (Except.error e >>= f) = .error e := rfl

@[simp] theorem map_ok (f : α → β) (a : α) : (f <$> (Except.ok a : Except ε α)) = .ok (f a) := rfl

@[simp] theorem map_error (f : α → β) (e : ε) : (f <$> (Except.error e : Except ε α)) = .error e :=
  rfl

end

namespace Json

/-- A value of the wrong kind is never read. -/
theorem exists_mismatch_eq {α : Type} (v : Json) (expected : String) :
    ∃ fault, (v.mismatch expected : Except Fault α) = .error fault := by
  unfold mismatch
  cases v.kind with
  | error fault => exact ⟨fault, rfl⟩
  | ok kind => exact ⟨_, rfl⟩

end Json

namespace Slot

variable {V α β : Type} {name : String} {read : V → Except Fault β} {set : β → α → α}

@[simp] theorem needed_name : (needed name read set).name = name := rfl

@[simp] theorem needed_required : (needed name read set).required = true := rfl

@[simp] theorem defaulted_name : (defaulted name read set).name = name := rfl

@[simp] theorem defaulted_required : (defaulted name read set).required = false := rfl

end Slot

namespace Record

variable {α β : Type}

/-- A slot with what a document holds for it, if it holds anything. -/
abbrev SlotPart (α : Type) := Slot Json α × Option Json

/-- The members of an object with these parts. -/
def members (parts : List (SlotPart α)) : List (String × Json) :=
  parts.filterMap fun part => part.2.map (part.1.name, ·)

/-- Puts parts in place one after the other. -/
def fill : List (SlotPart α) → α → Except Fault α
  | [], a => .ok a
  | (_, none) :: parts, a => fill parts a
  | (slot, some v) :: parts, a => do fill parts (← slot.put v a)

section

variable {slots : List (Slot Json α)} {parts : List (SlotPart α)} {seen : List String} {a blank : α}

theorem mem_members {name : String} {v : Json} :
    (name, v) ∈ members parts ↔ ∃ slot, (slot, some v) ∈ parts ∧ slot.name = name := by
  simp only [members, List.mem_filterMap, Option.map_eq_some_iff, Prod.mk.injEq]
  constructor
  · rintro ⟨⟨slot, v?⟩, hpart, _, hv, rfl, rfl⟩
    exact ⟨slot, hv ▸ hpart, rfl⟩
  · rintro ⟨slot, hpart, rfl⟩
    exact ⟨_, hpart, v, rfl, rfl, rfl⟩

/-- By induction on the parts; `seen` holds the names of those before. -/
theorem readMembers_members
    (hfind : ∀ part ∈ parts, slots.find? (·.name == part.1.name) = some part.1)
    (hnames : (parts.map (·.1.name)).Nodup) (hseen : ∀ part ∈ parts, part.1.name ∉ seen) :
    readMembers slots ((members parts).map fun m => (.ok m.1, m.2)) seen a =
      (fill parts a).map (((members parts).map Prod.fst).reverse ++ seen, ·) := by
  induction parts generalizing seen a with
  | nil => rfl
  | cons part parts ih =>
      obtain ⟨slot, v?⟩ := part
      rw [List.map_cons, List.nodup_cons] at hnames
      have hfindRest := fun part hpart => hfind part (List.mem_cons_of_mem _ hpart)
      have hseenRest := fun part hpart => hseen part (List.mem_cons_of_mem _ hpart)
      cases v? with
      | none => exact ih hfindRest hnames.2 hseenRest
      | some v =>
          have hslot := hfind _ List.mem_cons_self
          have hnew := hseen _ List.mem_cons_self
          have hmembers : members ((slot, some v) :: parts) = (slot.name, v) :: members parts := rfl
          rw [hmembers, List.map_cons, readMembers, fill]
          cases hput : slot.put v a with
          | error fault =>
              simp [hslot, hnew, hput]
              rfl
          | ok b =>
              have hfresh : ∀ part ∈ parts, part.1.name ∉ slot.name :: seen := by
                intro part hpart hmem
                rcases List.mem_cons.mp hmem with hsame | hmem
                · exact hnames.1 (List.mem_map.mpr ⟨part, hpart, hsame⟩)
                · exact hseenRest part hpart hmem
              simp [hslot, hnew, hput, ih hfindRest hnames.2 hfresh]

theorem find?_name (hnames : (slots.map (·.name)).Nodup) {slot : Slot Json α}
    (hslot : slot ∈ slots) : slots.find? (·.name == slot.name) = some slot := by
  induction slots with
  | nil => cases hslot
  | cons first slots ih =>
      rw [List.map_cons, List.nodup_cons] at hnames
      rcases List.mem_cons.mp hslot with rfl | hslot
      · simp
      · have hother : first.name ≠ slot.name := by
          intro hsame
          exact hnames.1 (List.mem_map.mpr ⟨slot, hslot, hsame.symm⟩)
        rw [List.find?_cons_of_neg (by simpa using hother)]
        exact ih hnames.2 hslot

/-- A written record is read by putting its parts in place. -/
theorem read_members (expected : String) (hslots : parts.map Prod.fst = slots)
    (hnames : (slots.map (·.name)).Nodup)
    (hneeded : ∀ part ∈ parts, part.1.required = true → part.2 ≠ none) :
    Record.read expected slots blank (.record (members parts)) = fill parts blank := by
  subst hslots
  have hshape : Source.shape expected (Json.record (members parts)) =
      .ok (.keyed ((members parts).map fun m => (.ok m.1, m.2))) := by
    simp only [Source.shape, Json.record, Json.readShape, List.map_map]
    rfl
  have hread : readMembers (parts.map Prod.fst) ((members parts).map fun m => (.ok m.1, m.2)) []
      blank = (fill parts blank).map (((members parts).map Prod.fst).reverse ++ [], ·) := by
    refine readMembers_members (fun part hpart => ?_) ?_ (by simp)
    · exact find?_name hnames (List.mem_map_of_mem hpart)
    · rwa [List.map_map] at hnames
  rw [Record.read, hshape, ok_bind]
  simp only [hread]
  cases hfill : fill parts blank with
  | error fault => rfl
  | ok b =>
      have hthere : ((parts.map Prod.fst).find? fun slot => slot.required &&
          !(((members parts).map Prod.fst).reverse ++ []).contains slot.name) = none := by
        rw [List.find?_eq_none]
        intro slot hslot hmissing
        obtain ⟨⟨_, v?⟩, hpart, rfl⟩ := List.mem_map.mp hslot
        simp only [Bool.and_eq_true, Bool.not_eq_true', List.append_nil] at hmissing
        cases v? with
        | none => exact hneeded _ hpart hmissing.1 rfl
        | some v =>
            have hmember := mem_members.mpr ⟨_, hpart, rfl⟩
            have hname := List.mem_map_of_mem (f := Prod.fst) hmember
            simp [hname] at hmissing
      simp only [Except.map, ok_bind, hthere]
      rfl

end

/-- A list as a part: it is left out when empty. -/
def listPart (toJson : β → Json) : List β → Option Json
  | [] => none
  | b :: bs => some (.array ((b :: bs).map toJson))

section

variable {name : String} {read : Json → Except Fault β} {toJson : β → Json} {set : β → α → α}
  {parts : List (SlotPart α)} {a : α}

@[simp] theorem members_nil : members ([] : List (SlotPart α)) = [] := rfl

@[simp] theorem members_some {slot : Slot Json α} {v : Json} :
    members ((slot, some v) :: parts) = (slot.name, v) :: members parts := rfl

@[simp] theorem members_optional {slot : Slot Json α} (b? : Option β) :
    members ((slot, b?.map toJson) :: parts) =
      optionMember slot.name toJson b? ++ members parts := by
  cases b? <;> rfl

@[simp] theorem members_list {slot : Slot Json α} (bs : List β) :
    members ((slot, listPart toJson bs) :: parts) =
      listMember slot.name toJson bs ++ members parts := by
  cases bs <;> rfl

theorem fill_nil : fill [] a = .ok a := rfl

theorem fill_needed (v : Json) :
    fill ((.needed name read set, some v) :: parts) a =
      read v >>= fun b => fill parts (set b a) := by
  simp only [fill, Slot.needed, bind_assoc, pure_bind]

theorem fill_defaulted (v : Json) :
    fill ((.defaulted name read set, some v) :: parts) a =
      read v >>= fun b => fill parts (set b a) := by
  simp only [fill, Slot.defaulted, bind_assoc, pure_bind]

/-- What an optional value comes back as from where it is written. -/
def rereadOption (read : Json → Except Fault β) (toJson : β → Json) :
    Option β → Except Fault (Option β)
  | none => .ok none
  | some b => Source.optional read (toJson b)

/-- Values that are written as something and read back are the same, and so is their absence. -/
theorem rereadOption_eq_ok (hwritten : ∀ b, Source.isAbsent (toJson b) = false)
    (hread : ∀ b, read (toJson b) = .ok b) (b? : Option β) :
    rereadOption read toJson b? = .ok b? := by
  cases b? with
  | none => rfl
  | some b =>
      rw [rereadOption, Source.optional, hwritten, hread]
      rfl

theorem fill_optional {set : Option β → α → α} (b? : Option β) (hset : set none a = a) :
    fill ((.defaulted name (Source.optional read) set, b?.map toJson) :: parts) a =
      rereadOption read toJson b? >>= fun c? => fill parts (set c? a) := by
  cases b? with
  | none => rw [Option.map_none, fill, rereadOption, ok_bind, hset]
  | some b => exact fill_defaulted _

theorem list_array (bs : List β) :
    Source.list read (.array (bs.map toJson)) = bs.mapM fun b => read (toJson b) := by
  change (bs.map toJson).mapM read = _
  rw [List.mapM_map]
  rfl

theorem fill_list {set : List β → α → α} (bs : List β) (hset : set [] a = a) :
    fill ((.defaulted name (Source.list read) set, listPart toJson bs) :: parts) a =
      (bs.mapM fun b => read (toJson b)) >>= fun cs => fill parts (set cs a) := by
  cases bs with
  | nil =>
      change fill parts a = fill parts (set [] a)
      rw [hset]
  | cons b bs => rw [listPart, fill_defaulted, list_array]

/-- Items that each come back as themselves come back as a list of themselves. -/
theorem mapM_eq_ok_self_iff {f : β → Except Fault β} {bs : List β} :
    bs.mapM f = .ok bs ↔ ∀ b ∈ bs, f b = .ok b := by
  induction bs with
  | nil => simp [pure, Except.pure]
  | cons b bs ih =>
      rw [List.mapM_cons, List.forall_mem_cons, ← ih]
      cases hb : f b with
      | error fault => simp
      | ok c =>
          cases hbs : bs.mapM f with
          | error fault => simp
          | ok cs => simp [pure, Except.pure]

end

end Record

end TrialView
