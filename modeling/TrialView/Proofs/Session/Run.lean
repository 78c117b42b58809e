import TrialView.Proofs.Session.Move

/-!
Runs of a session. A run splits at every place, and the store that a session reaches is the one that
the writes among its actions lead to, whatever was done between them.
-/

namespace TrialView.Session

theorem run_append (s : Session) (first second : List Action) :
    s.run (first ++ second) =
      (((s.run first).1.run second).1, (s.run first).2 ++ ((s.run first).1.run second).2) := by
  induction first generalizing s with
  | nil => rfl
  | cons a first ih => simp only [List.cons_append, run, ih]

/-- The session after actions from the first to the last, from one in which nothing was done. -/
def reached (past : List Action) : Session := (empty.run past).1

theorem reached_append (past later : List Action) :
    reached (past ++ later) = ((reached past).run later).1 := by
  rw [reached, run_append, reached]

theorem reached_append_singleton (past : List Action) (a : Action) :
    reached (past ++ [a]) = ((reached past).step a).1 := by
  rw [reached_append]
  rfl

variable {s next : Session} {a : Action} {answer : Answer}

/-- Only writes change the store. -/
theorem Move.store (h : Move s a answer next) :
    next.store = (a.write?.map s.store.write).getD s.store := by
  cases h with
  | write hwrite => simp [hwrite]
  | ask hasks => simp [hasks.write?_eq_none]
  | unknownTrial hstreams => simp [hstreams.write?_eq_none]
  | unknownSource hthrough => simp [hthrough.write?_eq_none]
  | _ => rfl

theorem store_reached (past : List Action) :
    (reached past).store = Store.ofLog (past.filterMap Action.write?) := by
  induction past using List.reverseRecOn with
  | nil => rfl
  | append_singleton past a ih =>
      rw [reached_append_singleton, (move_step _ a).store, ih, List.filterMap_append]
      cases hwrite : a.write? with
      | none => simp [hwrite]
      | some w => simp [hwrite, Store.ofLog_append_singleton]

/-- The ticks of a trial rise in every session reached, and its samples name it. -/
theorem samples_reached {past : List Action} {trial : String} {samples : List Sample}
    (h : (reached past).store.samples trial = .ok samples) :
    (samples.Pairwise fun a b => a.tick < b.tick) ∧ ∀ x ∈ samples, x.trialId = trial := by
  rw [store_reached] at h
  obtain ⟨t, hget, rfl⟩ := Store.map_find_eq_ok_iff.mp h
  exact Store.samples_ofLog hget

/-- Subscriptions and streams refer to tallies that are there. -/
structure Numbered (s : Session) : Prop where
  subscriptions : ∀ name sub, s.subscriptions.lookup name = some sub →
    sub.tally < s.tallies.length
  streams : ∀ name st, s.streams.lookup name = some st →
    st.subscription.tally < s.tallies.length

@[simp] theorem count_store (s : Session) (sub : Subscription) (samples : List Sample) :
    (s.count sub samples).store = s.store := rfl

@[simp] theorem count_subscriptions (s : Session) (sub : Subscription) (samples : List Sample) :
    (s.count sub samples).subscriptions = s.subscriptions := rfl

@[simp] theorem count_streams (s : Session) (sub : Subscription) (samples : List Sample) :
    (s.count sub samples).streams = s.streams := rfl

@[simp] theorem length_count_tallies (s : Session) (sub : Subscription) (samples : List Sample) :
    (s.count sub samples).tallies.length = s.tallies.length :=
  List.length_modify ..

theorem numbered_empty : empty.Numbered :=
  ⟨fun _ _ h => by simp [empty] at h, fun _ _ h => by simp [empty] at h⟩

theorem Move.numbered (h : Move s a answer next) (hs : s.Numbered) : next.Numbered := by
  cases h with
  | subscribe hgives =>
      have hgrown : (s.tallies ++ [Tally.zero]).length = s.tallies.length + 1 := by simp
      constructor
      · refine forall_lookup_assign ?_ ?_
        · exact hgrown ▸ Nat.lt_succ_self _
        · intro name sub hlookup
          exact hgrown ▸ Nat.lt_succ_of_lt (hs.subscriptions name sub hlookup)
      · intro name st hlookup
        exact hgrown ▸ Nat.lt_succ_of_lt (hs.streams name st hlookup)
  | clone hsource =>
      exact ⟨forall_lookup_assign (hs.subscriptions _ _ hsource) hs.subscriptions, hs.streams⟩
  | project hsource => exact ⟨by simpa using hs.subscriptions, by simpa using hs.streams⟩
  | drain hsource hsamples => exact ⟨by simpa using hs.subscriptions, by simpa using hs.streams⟩
  | openStream hsource hsamples =>
      exact ⟨hs.subscriptions, forall_lookup_assign (hs.subscriptions _ _ hsource) hs.streams⟩
  | pull hstream =>
      have hsub := hs.streams _ _ hstream
      refine ⟨by simpa using hs.subscriptions, ?_⟩
      simp only [length_count_tallies]
      exact forall_lookup_assign (p := fun st : Stream => st.subscription.tally < s.tallies.length)
        hsub hs.streams
  | reset hsource =>
      constructor
      · simpa [updateTally] using hs.subscriptions
      · simpa [updateTally] using hs.streams
  | _ => exact ⟨hs.subscriptions, hs.streams⟩

theorem numbered_reached (past : List Action) : (reached past).Numbered := by
  induction past using List.reverseRecOn with
  | nil => exact numbered_empty
  | append_singleton past a ih =>
      rw [reached_append_singleton]
      exact (move_step _ a).numbered ih

end TrialView.Session
