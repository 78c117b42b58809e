import TrialView.Roster
import TrialView.Sample

/-!
A store of trials. Each trial has the parameters it was created with and the samples that were
added, whose ticks rise. The entries are in the order of their identifiers, each of which occurs
once, so that stores with the same trials are equal.
-/

namespace TrialView

structure Trial where
  params : Params
  samples : List Sample
deriving Repr, DecidableEq

inductive StoreError where
  | unknownTrial (id : String)
  | duplicateTrial (id : String)
  | outOfOrderTick (id : String) (tick lastTick : UInt64)
deriving Repr, DecidableEq

namespace StoreError

def message : StoreError → String
  | .unknownTrial id => s!"Trial {id} not found"
  | .duplicateTrial id => s!"Trial {id} already exists"
  | .outOfOrderTick id tick lastTick =>
      s!"Trial {id}: tick {tick.toNat} does not follow stored tick {lastTick.toNat}"

end StoreError

namespace Store

/-- A trial under its identifier. -/
abbrev Entry := String × Trial

def Ordered (entries : List Entry) : Prop :=
  entries.Pairwise fun a b => a.1 < b.1

/-- Puts a trial in its place, in the stead of one with the same identifier. -/
def putEntry (id : String) (t : Trial) : List Entry → List Entry
  | [] => [(id, t)]
  | e :: es =>
      if id < e.1 then (id, t) :: e :: es
      else if id = e.1 then (id, t) :: es
      else e :: putEntry id t es

def dropEntry (id : String) (entries : List Entry) : List Entry :=
  entries.filter fun e => e.1 ≠ id

theorem mem_putEntry {id : String} {t : Trial} {entries : List Entry} {e : Entry}
    (h : e ∈ putEntry id t entries) : e = (id, t) ∨ e ∈ entries := by
  induction entries with
  | nil => simpa [putEntry] using h
  | cons x xs ih =>
      simp only [putEntry] at h
      split at h
      · simpa using h
      · split at h
        · rcases List.mem_cons.1 h with h | h
          · exact .inl h
          · exact .inr (List.mem_cons_of_mem _ h)
        · rcases List.mem_cons.1 h with h | h
          · exact .inr (h ▸ List.mem_cons_self)
          · exact (ih h).imp_right (List.mem_cons_of_mem _)

theorem ordered_putEntry {id : String} {t : Trial} {entries : List Entry}
    (h : Ordered entries) : Ordered (putEntry id t entries) := by
  induction entries with
  | nil => simp [putEntry, Ordered]
  | cons x xs ih =>
      have hx := List.pairwise_cons.1 h
      simp only [putEntry]
      split
      · rename_i hlt
        refine List.pairwise_cons.2 ⟨fun e he => ?_, h⟩
        rcases List.mem_cons.1 he with he | he
        · exact he ▸ hlt
        · exact String.lt_trans hlt (hx.1 e he)
      · split
        · rename_i heq
          exact List.pairwise_cons.2 ⟨fun e he => heq ▸ hx.1 e he, hx.2⟩
        · rename_i hlt hne
          refine List.pairwise_cons.2 ⟨fun e he => ?_, ih hx.2⟩
          rcases mem_putEntry he with he | he
          · exact he ▸ String.not_le.1 fun hle => hne (String.le_antisymm hle (String.not_lt.1 hlt))
          · exact hx.1 e he

theorem lookup_entry {α : Type} (e : String × α) (entries : List (String × α)) (id : String) :
    (e :: entries).lookup id = if id = e.1 then some e.2 else entries.lookup id := by
  obtain ⟨k, t⟩ := e
  by_cases h : id = k
  · simp [h]
  · simp [List.lookup_cons, beq_false_of_ne h, h]

theorem lookup_putEntry (id other : String) (t : Trial) (entries : List Entry) :
    (putEntry id t entries).lookup other = if other = id then some t else entries.lookup other := by
  induction entries with
  | nil => simp [putEntry, lookup_entry]
  | cons x xs ih =>
      simp only [putEntry]
      split
      · exact lookup_entry ..
      · split
        · rename_i hx
          by_cases h : other = id <;> simp [lookup_entry, ← hx, h]
        · rename_i hx
          by_cases h : other = x.1
          · simp [lookup_entry, h, Ne.symm hx]
          · simp [lookup_entry, h, ih]

theorem lookup_filter_ne {α : Type} (id other : String) (entries : List (String × α)) :
    (entries.filter fun e => e.1 ≠ id).lookup other =
      if other = id then none else entries.lookup other := by
  induction entries with
  | nil => simp
  | cons x xs ih =>
      by_cases hx : x.1 = id
      · rw [List.filter_cons_of_neg (by simp [hx]), ih, lookup_entry, hx]
        by_cases h : other = id <;> simp [h]
      · rw [List.filter_cons_of_pos (by simp [hx]), lookup_entry, ih, lookup_entry]
        by_cases h : other = x.1 <;> simp [h, hx]

theorem lookup_dropEntry (id other : String) (entries : List Entry) :
    (dropEntry id entries).lookup other = if other = id then none else entries.lookup other :=
  lookup_filter_ne id other entries

theorem ordered_dropEntry {id : String} {entries : List Entry} (h : Ordered entries) :
    Ordered (dropEntry id entries) :=
  List.Pairwise.filter _ h

end Store

structure Store where
  entries : List Store.Entry
  ordered : Store.Ordered entries
deriving DecidableEq

namespace Store

def empty : Store := ⟨[], .nil⟩

def get? (s : Store) (id : String) : Option Trial :=
  s.entries.lookup id

def put (s : Store) (id : String) (t : Trial) : Store :=
  ⟨putEntry id t s.entries, ordered_putEntry s.ordered⟩

def erase (s : Store) (id : String) : Store :=
  ⟨dropEntry id s.entries, ordered_dropEntry s.ordered⟩

@[simp] theorem get?_empty (id : String) : empty.get? id = none := rfl

@[simp] theorem get?_put (s : Store) (id other : String) (t : Trial) :
    (s.put id t).get? other = if other = id then some t else s.get? other :=
  lookup_putEntry id other t s.entries

@[simp] theorem get?_erase (s : Store) (id other : String) :
    (s.erase id).get? other = if other = id then none else s.get? other :=
  lookup_dropEntry id other s.entries

def find (s : Store) (id : String) : Except StoreError Trial :=
  match s.get? id with
  | some t => .ok t
  | none => .error (.unknownTrial id)

def create (s : Store) (id : String) (params : Params) : Except StoreError Store :=
  match s.get? id with
  | some _ => .error (.duplicateTrial id)
  | none => .ok (s.put id ⟨params, []⟩)

/-- Adds a sample to the trial that it names. Its tick has to follow that of the last sample. -/
def add (s : Store) (sample : Sample) : Except StoreError Store := do
  let t ← s.find sample.trialId
  match t.samples.getLast? with
  | some last =>
      if sample.tick ≤ last.tick then
        throw (.outOfOrderTick sample.trialId sample.tick last.tick)
  | none => pure ()
  pure (s.put sample.trialId { t with samples := t.samples ++ [sample] })

def delete (s : Store) (id : String) : Except StoreError Store := do
  let _ ← s.find id
  pure (s.erase id)

/-- The identifiers of the trials in order. -/
def ids (s : Store) : List String := s.entries.map (·.1)

def params (s : Store) (id : String) : Except StoreError Params :=
  (·.params) <$> s.find id

def roster (s : Store) (id : String) : Except StoreError (List Actor) :=
  (·.params.roster) <$> s.find id

def samples (s : Store) (id : String) : Except StoreError (List Sample) :=
  (·.samples) <$> s.find id

end Store

end TrialView
