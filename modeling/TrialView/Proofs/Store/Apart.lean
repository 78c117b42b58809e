import TrialView.Proofs.Store.Write
import Mathlib.Data.List.Sort

/-!
Trials are apart from each other. A call on a store is about one trial: what it is replied, and what
it makes of the trial, follow from what the store has under that identifier, and every other trial
stays as it is. Calls about different trials therefore commute, and two parties that share no trial
do not notice each other: in whatever order their calls are made, each call is replied as if its
party were alone, and the store is the same in the end.
-/

namespace TrialView.Store

/-- What a store is asked to do or to tell. -/
inductive Call where
  | write (w : Write)
  | params (id : String)
  | roster (id : String)
  | samples (id : String)
deriving Repr, DecidableEq

/-- What comes back from a call. -/
inductive Reply where
  | written (r : Except StoreError Unit)
  | params (r : Except StoreError Params)
  | roster (r : Except StoreError (List Actor))
  | samples (r : Except StoreError (List Sample))

namespace Call

/-- The trial that a call is about. -/
def trial : Call → String
  | .write w => w.trial
  | .params id | .roster id | .samples id => id

/-- What a call makes of its trial. -/
def effect : Call → Option Trial → Option Trial
  | .write w => w.effect
  | .params _ | .roster _ | .samples _ => id

end Call

def reply (s : Store) : Call → Reply
  | .write w => .written ((fun _ => ()) <$> s.attempt w)
  | .params id => .params (s.params id)
  | .roster id => .roster (s.roster id)
  | .samples id => .samples (s.samples id)

/-- The store after a call, be it granted or refused. -/
def after (s : Store) : Call → Store
  | .write w => s.write w
  | .params _ | .roster _ | .samples _ => s

/-- The replies to calls that are made one after the other. -/
def replies (s : Store) : List Call → List Reply
  | [] => []
  | c :: calls => s.reply c :: (s.after c).replies calls

/-- The store after calls. -/
def afterAll (s : Store) (calls : List Call) : Store := calls.foldl after s

/-- What the first of two parties has in a list. -/
def lefts {α : Type} (both : List (α ⊕ α)) : List α := both.filterMap Sum.getLeft?

/-- What the second of two parties has in a list. -/
def rights {α : Type} (both : List (α ⊕ α)) : List α := both.filterMap Sum.getRight?

/-- The calls of two parties in an order in which they may be made. -/
def Interleaves (xs ys : List Call) (both : List (Call ⊕ Call)) : Prop :=
  lefts both = xs ∧ rights both = ys

/-- Calls without the parties that make them. -/
def unmarked (both : List (Call ⊕ Call)) : List Call := both.map (Sum.elim id id)

/-- The replies to the calls of two parties, each to the party that made the call. -/
def markedReplies (s : Store) (both : List (Call ⊕ Call)) : List (Reply ⊕ Reply) :=
  List.zipWith (fun c r => c.map (fun _ => r) fun _ => r) both (s.replies (unmarked both))

/-- No trial is asked about in calls of both parties. -/
def Apart (xs ys : List Call) : Prop := ∀ x ∈ xs, ∀ y ∈ ys, x.trial ≠ y.trial

instance (xs ys : List Call) : Decidable (Apart xs ys) :=
  inferInstanceAs (Decidable (∀ x ∈ xs, ∀ y ∈ ys, x.trial ≠ y.trial))

/-! Stores with the same trials are equal. -/

theorem mem_entries {entries : List Entry} (h : Ordered entries) {id : String} {t : Trial} :
    (id, t) ∈ entries ↔ entries.lookup id = some t := by
  induction entries with
  | nil => simp
  | cons e entries ih =>
      obtain ⟨hfirst, hrest⟩ := List.pairwise_cons.mp h
      rw [lookup_entry, List.mem_cons, ih hrest]
      by_cases hid : id = e.1
      · subst hid
        have hnone : entries.lookup e.1 ≠ some t := by
          rw [ne_eq, ← ih hrest]
          intro hlater
          exact String.lt_irrefl e.1 (hfirst (e.1, t) hlater)
        simp [hnone, Prod.ext_iff, eq_comm]
      · simp [hid, Prod.ext_iff]

theorem ext_get? {s t : Store} (h : ∀ id, s.get? id = t.get? id) : s = t := by
  have hmem (e : Entry) : e ∈ s.entries ↔ e ∈ t.entries := by
    obtain ⟨id, trial⟩ := e
    have hid : s.entries.lookup id = t.entries.lookup id := h id
    rw [mem_entries s.ordered, mem_entries t.ordered, hid]
  have hirrefl : Std.Irrefl fun a b : Entry => a.1 < b.1 := ⟨fun a => String.lt_irrefl a.1⟩
  have hantisymm : Std.Antisymm fun a b : Entry => a.1 < b.1 :=
    ⟨fun a b hab hba => absurd (String.lt_trans hab hba) (String.lt_irrefl a.1)⟩
  have hentries : s.entries = t.entries :=
    List.Pairwise.eq_of_mem_iff s.ordered t.ordered hmem
  cases s
  cases t
  cases hentries
  rfl

section

variable {s t : Store} {c d : Call} {xs ys : List Call} {both : List (Call ⊕ Call)}

/-- Whether a write is refused, and why, follows from its trial. -/
theorem attempt_eq_error_congr {w : Write} (h : s.get? w.trial = t.get? w.trial)
    (e : StoreError) : s.attempt w = .error e ↔ t.attempt w = .error e := by
  cases w with
  | create id params =>
      have hid : s.get? id = t.get? id := h
      simp only [attempt, create_eq_error_iff, mem_ids, hid]
  | add x =>
      have hid : s.get? x.trialId = t.get? x.trialId := h
      simp only [attempt, add_eq_error_iff, hid]
  | delete id =>
      have hid : s.get? id = t.get? id := h
      simp only [attempt, delete_eq_error_iff, mem_ids, hid]

/-- What a call is replied follows from its trial. -/
theorem reply_congr (h : s.get? c.trial = t.get? c.trial) : s.reply c = t.reply c := by
  have hfind : s.find c.trial = t.find c.trial := by rw [find, find, h]
  cases c with
  | write w =>
      have herror := attempt_eq_error_congr h
      simp only [reply]
      cases hs : s.attempt w with
      | error e => rw [(herror e).mp hs]
      | ok next =>
          cases ht : t.attempt w with
          | error e => simp [(herror e).mpr ht] at hs
          | ok next' => rfl
  | params id => exact congrArg (fun r => Reply.params ((·.params) <$> r)) hfind
  | roster id => exact congrArg (fun r => Reply.roster ((·.params.roster) <$> r)) hfind
  | samples id => exact congrArg (fun r => Reply.samples ((·.samples) <$> r)) hfind

/-- A call changes its own trial at most. -/
theorem get?_after (s : Store) (c : Call) (id : String) :
    (s.after c).get? id = if id = c.trial then c.effect (s.get? id) else s.get? id := by
  cases c with
  | write w => exact get?_write s w id
  | params other => exact (ite_self _).symm
  | roster other => exact (ite_self _).symm
  | samples other => exact (ite_self _).symm

theorem reply_after (h : d.trial ≠ c.trial) : (s.after d).reply c = s.reply c :=
  reply_congr (by rw [get?_after, if_neg (Ne.symm h)])

theorem after_comm (h : d.trial ≠ c.trial) : (s.after d).after c = (s.after c).after d := by
  refine ext_get? fun id => ?_
  simp only [get?_after]
  by_cases hc : id = c.trial
  · simp [hc, Ne.symm h]
  · simp [hc]

/-- Replies are the same after a call that is about none of their trials. -/
theorem replies_after (h : ∀ x ∈ xs, d.trial ≠ x.trial) :
    (s.after d).replies xs = s.replies xs := by
  induction xs generalizing s with
  | nil => rfl
  | cons x xs ih =>
      rw [List.forall_mem_cons] at h
      rw [replies, replies, reply_after h.1, after_comm h.1, ih h.2]

theorem afterAll_after (h : ∀ x ∈ xs, d.trial ≠ x.trial) :
    (s.after d).afterAll xs = (s.afterAll xs).after d := by
  induction xs generalizing s with
  | nil => rfl
  | cons x xs ih =>
      rw [List.forall_mem_cons] at h
      calc
        (s.after d).afterAll (x :: xs)
          = ((s.after d).after x).afterAll xs := rfl
        _ = ((s.after x).after d).afterAll xs := by rw [after_comm h.1]
        _ = (s.afterAll (x :: xs)).after d := ih h.2

/-- A call of the second party is about no trial of the first, whose replies are therefore those that
it gets without the call. -/
theorem lefts_markedReplies (h : Apart (lefts both) (rights both)) :
    lefts (s.markedReplies both) = s.replies (lefts both) := by
  induction both generalizing s with
  | nil => rfl
  | cons z both ih =>
      cases z with
      | inl c =>
          have hrest : Apart (lefts both) (rights both) :=
            fun x hx => h x (List.mem_cons_of_mem c hx)
          change s.reply c :: lefts ((s.after c).markedReplies both) = _
          rw [ih hrest]
          rfl
      | inr c =>
          have hrest : Apart (lefts both) (rights both) :=
            fun x hx y hy => h x hx y (List.mem_cons_of_mem c hy)
          have hc : ∀ x ∈ lefts both, c.trial ≠ x.trial :=
            fun x hx => Ne.symm (h x hx c List.mem_cons_self)
          change lefts ((s.after c).markedReplies both) = s.replies (lefts both)
          rw [ih hrest, replies_after hc]

theorem rights_markedReplies (h : Apart (lefts both) (rights both)) :
    rights (s.markedReplies both) = s.replies (rights both) := by
  induction both generalizing s with
  | nil => rfl
  | cons z both ih =>
      cases z with
      | inl c =>
          have hrest : Apart (lefts both) (rights both) :=
            fun x hx => h x (List.mem_cons_of_mem c hx)
          have hc : ∀ y ∈ rights both, c.trial ≠ y.trial :=
            fun y hy => h c List.mem_cons_self y hy
          change rights ((s.after c).markedReplies both) = s.replies (rights both)
          rw [ih hrest, replies_after hc]
      | inr c =>
          have hrest : Apart (lefts both) (rights both) :=
            fun x hx y hy => h x hx y (List.mem_cons_of_mem c hy)
          change s.reply c :: rights ((s.after c).markedReplies both) = _
          rw [ih hrest]
          rfl

/-- The store ends as if the second party had waited for the first. -/
theorem afterAll_unmarked (h : Apart (lefts both) (rights both)) :
    s.afterAll (unmarked both) = (s.afterAll (lefts both)).afterAll (rights both) := by
  induction both generalizing s with
  | nil => rfl
  | cons z both ih =>
      cases z with
      | inl c => exact ih fun x hx => h x (List.mem_cons_of_mem c hx)
      | inr c =>
          have hrest : Apart (lefts both) (rights both) :=
            fun x hx y hy => h x hx y (List.mem_cons_of_mem c hy)
          have hc : ∀ x ∈ lefts both, c.trial ≠ x.trial :=
            fun x hx => Ne.symm (h x hx c List.mem_cons_self)
          calc
            s.afterAll (unmarked (.inr c :: both))
              = (s.after c).afterAll (unmarked both) := rfl
            _ = ((s.after c).afterAll (lefts both)).afterAll (rights both) := ih hrest
            _ = ((s.afterAll (lefts both)).after c).afterAll (rights both) := by
              rw [afterAll_after hc]

/-- Whatever a store holds, two parties that share no trial do not notice each other. In every order
in which their calls may be made, each party gets the replies that it gets alone, and after all of
these orders the store is the same. -/
theorem interleaved_replies (s : Store) (hapart : Apart xs ys) (h : Interleaves xs ys both) :
    lefts (s.markedReplies both) = s.replies xs ∧
    rights (s.markedReplies both) = s.replies ys ∧
    ∀ other, Interleaves xs ys other →
      s.afterAll (unmarked other) = s.afterAll (unmarked both) := by
  obtain ⟨rfl, rfl⟩ := h
  refine ⟨lefts_markedReplies hapart, rights_markedReplies hapart, ?_⟩
  rintro other ⟨hleft, hright⟩
  rw [afterAll_unmarked hapart, afterAll_unmarked (hleft ▸ hright ▸ hapart), hleft, hright]

end

/-- A trial that has come to its fifth tick. -/
def home : Store :=
  (empty.write (.create "home" .blank)).write
    (.add { Sample.blank with trialId := "home", tick := 5 })

/-- The first party offers the fifth tick once more and deletes the trial; the second one asks for
another trial before and after it is there. -/
def turns : List (Call ⊕ Call) :=
  [ .inr (.write (.delete "away")),
    .inl (.write (.add { Sample.blank with trialId := "home", tick := 5 })),
    .inr (.write (.create "away" .blank)),
    .inl (.write (.delete "home")),
    .inl (.samples "home"),
    .inr (.write (.add { Sample.blank with trialId := "away", tick := 1 })),
    .inr (.roster "away") ]

theorem turns_replies :
    Apart (lefts turns) (rights turns) ∧
    lefts (home.markedReplies turns) =
      [ .written (.error (.outOfOrderTick "home" 5 5)), .written (.ok ()),
        .samples (.error (.unknownTrial "home")) ] ∧
    rights (home.markedReplies turns) =
      [ .written (.error (.unknownTrial "away")), .written (.ok ()), .written (.ok ()),
        .roster (.ok []) ] ∧
    home.afterAll (unmarked ((rights turns).map .inr ++ (lefts turns).map .inl)) =
      home.afterAll (unmarked turns) := by
  have hapart : Apart (lefts turns) (rights turns) := by decide
  obtain ⟨hleft, hright, hlast⟩ := interleaved_replies home hapart ⟨rfl, rfl⟩
  exact ⟨hapart, hleft.trans rfl, hright.trans rfl, hlast _ ⟨rfl, rfl⟩⟩

end TrialView.Store
