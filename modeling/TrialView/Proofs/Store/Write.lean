import TrialView.Store

/-!
The writes of a store one by one. A write is about one trial. What it does to that trial follows
from the trial alone, every other trial stays as it is, and a write that is refused changes nothing.
-/

namespace TrialView

namespace Trial

/-- A tick follows the tick of the last sample, if there is one. -/
def Admits (t : Trial) (tick : UInt64) : Prop :=
  ∀ last, t.samples.getLast? = some last → last.tick < tick

theorem not_admits_iff {t : Trial} {tick : UInt64} :
    ¬ t.Admits tick ↔ ∃ last, t.samples.getLast? = some last ∧ tick ≤ last.tick := by
  simp [Admits, UInt64.not_lt]

instance (t : Trial) (tick : UInt64) : Decidable (t.Admits tick) :=
  decidable_of_iff (∀ last ∈ t.samples.getLast?, last.tick < tick) Iff.rfl

/-- The trial with one more sample, unless the sample comes too late. -/
def record (t : Trial) (x : Sample) : Trial :=
  if t.Admits x.tick then { t with samples := t.samples ++ [x] } else t

end Trial

namespace Store

/-- A change that a store is asked for. -/
inductive Write where
  | create (id : String) (params : Params)
  | add (x : Sample)
  | delete (id : String)
deriving Repr, DecidableEq

namespace Write

/-- The trial that a write is about. -/
def trial : Write → String
  | .create id _ => id
  | .add x => x.trialId
  | .delete id => id

/-- What a write makes of its trial. -/
def effect : Write → Option Trial → Option Trial
  | .create _ params, t => t.or (some ⟨params, []⟩)
  | .add x, t => t.map (·.record x)
  | .delete _, _ => none

end Write

def attempt (s : Store) : Write → Except StoreError Store
  | .create id params => s.create id params
  | .add x => s.add x
  | .delete id => s.delete id

/-- The store after a write, be it done or refused. -/
def write (s : Store) (w : Write) : Store :=
  match s.attempt w with
  | .ok next => next
  | .error _ => s

variable {s next : Store} {id : String} {x : Sample} {t : Trial} {e : StoreError}

theorem write_of_ok {w : Write} (h : s.attempt w = .ok next) : s.write w = next := by
  rw [write, h]

theorem write_of_error {w : Write} (h : s.attempt w = .error e) : s.write w = s := by
  rw [write, h]

/-! Reading. Every question about one trial is answered from what the store has under its
identifier. -/

theorem map_find_eq_ok_iff {α : Type} {f : Trial → α} {a : α} :
    f <$> s.find id = .ok a ↔ ∃ t, s.get? id = some t ∧ f t = a := by
  unfold find
  cases s.get? id <;> simp [Functor.map, Except.map]

theorem map_find_eq_error_iff {α : Type} {f : Trial → α} :
    f <$> s.find id = .error e ↔ s.get? id = none ∧ e = .unknownTrial id := by
  unfold find
  cases s.get? id <;> simp [Functor.map, Except.map, eq_comm]

theorem mem_ids : id ∈ s.ids ↔ ∃ t, s.get? id = some t := by
  unfold ids get?
  induction s.entries with
  | nil => simp
  | cons entry entries ih =>
      rw [List.map_cons, List.mem_cons, ih, lookup_entry]
      by_cases h : id = entry.1 <;> simp [h]

theorem not_mem_ids : id ∉ s.ids ↔ s.get? id = none := by
  rw [mem_ids, Option.eq_none_iff_forall_ne_some, not_exists]

theorem pairwise_ids (s : Store) : s.ids.Pairwise (· < ·) :=
  List.pairwise_map.mpr s.ordered

/-! Creating. -/

theorem create_present {params : Params} (h : s.get? id = some t) :
    s.create id params = .error (.duplicateTrial id) := by
  rw [create, h]

theorem create_absent {params : Params} (h : s.get? id = none) :
    s.create id params = .ok (s.put id ⟨params, []⟩) := by
  rw [create, h]

theorem create_eq_error_iff {params : Params} :
    s.create id params = .error e ↔ id ∈ s.ids ∧ e = .duplicateTrial id := by
  cases h : s.get? id with
  | none => simp [create_absent h, mem_ids, h]
  | some t => simp [create_present h, mem_ids, h, eq_comm]

/-! Deleting. -/

theorem delete_absent (h : s.get? id = none) : s.delete id = .error (.unknownTrial id) := by
  rw [delete, find, h]
  rfl

theorem delete_present (h : s.get? id = some t) : s.delete id = .ok (s.erase id) := by
  rw [delete, find, h]
  rfl

theorem delete_eq_error_iff : s.delete id = .error e ↔ id ∉ s.ids ∧ e = .unknownTrial id := by
  cases h : s.get? id with
  | none => simp [delete_absent h, mem_ids, h, eq_comm]
  | some t => simp [delete_present h, mem_ids, h]

/-! Adding. -/

theorem add_absent (h : s.get? x.trialId = none) :
    s.add x = .error (.unknownTrial x.trialId) := by
  rw [add, find, h]
  rfl

theorem add_late {last : Sample} (h : s.get? x.trialId = some t)
    (hlast : t.samples.getLast? = some last) (hlate : x.tick ≤ last.tick) :
    s.add x = .error (.outOfOrderTick x.trialId x.tick last.tick) := by
  rw [add, find, h]
  simp only [bind, Except.bind, hlast, if_pos hlate]
  rfl

theorem add_admitted (h : s.get? x.trialId = some t) (hadmits : t.Admits x.tick) :
    s.add x = .ok (s.put x.trialId { t with samples := t.samples ++ [x] }) := by
  rw [add, find, h]
  simp only [bind, Except.bind]
  cases hlast : t.samples.getLast? with
  | none => rfl
  | some last => exact if_neg (UInt64.not_le.mpr (hadmits last hlast))

theorem add_eq_error_iff :
    s.add x = .error e ↔
      (s.get? x.trialId = none ∧ e = .unknownTrial x.trialId) ∨
      ∃ t last, s.get? x.trialId = some t ∧ t.samples.getLast? = some last ∧
        x.tick ≤ last.tick ∧ e = .outOfOrderTick x.trialId x.tick last.tick := by
  cases h : s.get? x.trialId with
  | none => simp [add_absent h, eq_comm]
  | some t =>
      by_cases hadmits : t.Admits x.tick
      · rw [add_admitted h hadmits]
        have hnotLate (last : Sample) (hlast : t.samples.getLast? = some last) :
            ¬ x.tick ≤ last.tick :=
          UInt64.not_le.mpr (hadmits last hlast)
        simp +contextual [hnotLate]
      · obtain ⟨last, hlast, hlate⟩ := Trial.not_admits_iff.mp hadmits
        simp [add_late h hlast hlate, hlast, hlate, eq_comm]

/-! Writing. -/

/-- A write changes its own trial and no other. -/
theorem get?_write (s : Store) (w : Write) (id : String) :
    (s.write w).get? id = if id = w.trial then w.effect (s.get? id) else s.get? id := by
  cases w with
  | create other params =>
      simp only [Write.trial, Write.effect]
      cases h : s.get? other with
      | none =>
          rw [write_of_ok (w := .create other params) (create_absent h), get?_put]
          by_cases hid : id = other <;> simp [hid, h]
      | some t =>
          rw [write_of_error (w := .create other params) (create_present h)]
          by_cases hid : id = other <;> simp [hid, h]
  | add x =>
      simp only [Write.trial, Write.effect]
      cases h : s.get? x.trialId with
      | none =>
          rw [write_of_error (w := .add x) (add_absent h)]
          by_cases hid : id = x.trialId <;> simp [hid, h]
      | some t =>
          by_cases hadmits : t.Admits x.tick
          · rw [write_of_ok (w := .add x) (add_admitted h hadmits), get?_put]
            by_cases hid : id = x.trialId <;> simp [hid, h, Trial.record, hadmits]
          · obtain ⟨last, hlast, hlate⟩ := Trial.not_admits_iff.mp hadmits
            rw [write_of_error (w := .add x) (add_late h hlast hlate)]
            by_cases hid : id = x.trialId <;> simp [hid, h, Trial.record, hadmits]
  | delete other =>
      simp only [Write.trial, Write.effect]
      cases h : s.get? other with
      | none =>
          rw [write_of_error (w := .delete other) (delete_absent h)]
          by_cases hid : id = other <;> simp [hid, h]
      | some t =>
          rw [write_of_ok (w := .delete other) (delete_present h)]
          exact get?_erase s other id

end Store

end TrialView
