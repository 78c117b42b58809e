import TrialView.Proofs.Store.Write
import Mathlib.Data.List.Induction

/-!
A store as the log of the writes that were asked of it. What a log says of a trial is read off the
log alone: the trial is there when it was created and not deleted since, it has the parameters of
the create that made it, and its samples are those offered since whose tick exceeds the tick of each
one accepted before. A store compares a tick with that of the last sample only, which comes to the
same because the ticks accepted rise.
-/

namespace TrialView.Store

/-- The writes asked of a store from the first to the last, the refused ones included. -/
abbrev Log := List Write

/-- The store that a log leads to. -/
def ofLog (log : Log) : Store := log.foldl write empty

theorem ofLog_append_singleton (log : Log) (w : Write) :
    ofLog (log ++ [w]) = (ofLog log).write w := by
  simp [ofLog]

namespace Log

/-- A trial was created and not deleted since. -/
def Present (log : Log) (id : String) : Prop :=
  ∃ before params since, log = before ++ .create id params :: since ∧ .delete id ∉ since

/-- A create made a trial, which was not there, and `since` is what came after. -/
def Opened (log : Log) (id : String) (params : Params) (since : Log) : Prop :=
  ∃ before, log = before ++ .create id params :: since ∧ .delete id ∉ since ∧ ¬ Present before id

/-- The samples that were offered to a trial. -/
def offered (id : String) (log : Log) : List Sample :=
  log.filterMap fun w =>
    match w with
    | .add x => if x.trialId = id then some x else none
    | _ => none

/-- Takes a sample when its tick exceeds that of every sample taken before. -/
def take (taken : List Sample) (x : Sample) : List Sample :=
  if ∀ y ∈ taken, y.tick < x.tick then taken ++ [x] else taken

/-- The samples of a trial that a log accepts. -/
def accepted (id : String) (log : Log) : List Sample := (offered id log).foldl take []

variable {log since : Log} {id : String} {params : Params} {w : Write}

/-! Presence, one write after the other. -/

/-- A write of a log with one more at its end is that one or stood in the log before. -/
theorem append_singleton_eq_append_cons {before : Log} {v : Write} :
    log ++ [w] = before ++ v :: since ↔
      (log = before ∧ w = v ∧ since = []) ∨
        ∃ rest, since = rest ++ [w] ∧ log = before ++ v :: rest := by
  constructor
  · intro h
    rcases List.eq_nil_or_concat since with rfl | ⟨rest, last, rfl⟩
    · obtain ⟨hlog, hw⟩ := List.append_inj' h rfl
      exact .inl ⟨hlog, by simpa using hw, rfl⟩
    · rw [List.concat_eq_append, ← List.cons_append, ← List.append_assoc] at h
      obtain ⟨hlog, hw⟩ := List.append_inj' h rfl
      exact .inr ⟨rest, by simpa using hw.symm, hlog⟩
  · rintro (⟨rfl, rfl, rfl⟩ | ⟨rest, rfl, rfl⟩)
    · rfl
    · simp

theorem present_append_singleton :
    Present (log ++ [w]) id ↔
      (∃ params, w = .create id params) ∨ (Present log id ∧ w ≠ .delete id) := by
  constructor
  · rintro ⟨before, params, since, hlog, hsince⟩
    rcases append_singleton_eq_append_cons.mp hlog with ⟨_, rfl, _⟩ | ⟨rest, rfl, hrest⟩
    · exact .inl ⟨params, rfl⟩
    · simp only [List.mem_append, List.mem_singleton, not_or] at hsince
      exact .inr ⟨⟨before, params, rest, hrest, hsince.1⟩, Ne.symm hsince.2⟩
  · rintro (⟨params, rfl⟩ | ⟨⟨before, params, since, rfl, hsince⟩, hw⟩)
    · exact ⟨log, params, [], rfl, by simp⟩
    · exact ⟨before, params, since ++ [w], by simp, by simp [hsince, Ne.symm hw]⟩

theorem Opened.present (h : Opened log id params since) : Present log id := by
  obtain ⟨before, hlog, hsince, _⟩ := h
  exact ⟨before, params, since, hlog, hsince⟩

theorem opened_create (h : ¬ Present log id) :
    Opened (log ++ [.create id params]) id params [] :=
  ⟨log, rfl, by simp, h⟩

theorem Opened.append_singleton (h : Opened log id params since) (hw : w ≠ .delete id) :
    Opened (log ++ [w]) id params (since ++ [w]) := by
  obtain ⟨before, rfl, hsince, habsent⟩ := h
  exact ⟨before, by simp, by simp [hsince, Ne.symm hw], habsent⟩

/-- A log names one create that made a trial. -/
theorem Opened.unique {params' : Params} {since' : Log} (h : Opened log id params since)
    (h' : Opened log id params' since') : params = params' ∧ since = since' := by
  -- Were one create before the other, the trial would have been there at the later one.
  have hnotBefore {before before' between later later' : Log} {p p' : Params}
      (hbefore : before' = before ++ between)
      (hlater : .create id p :: later = between ++ .create id p' :: later')
      (hdelete : .delete id ∉ later) (habsent : ¬ Present before' id) : between = [] := by
    cases between with
    | nil => rfl
    | cons first between =>
        simp only [List.cons_append, List.cons.injEq] at hlater
        obtain ⟨rfl, rfl⟩ := hlater
        refine absurd ⟨before, p, between, hbefore, ?_⟩ habsent
        simp only [List.mem_append, not_or] at hdelete
        exact hdelete.1
  obtain ⟨before, hlog, hsince, habsent⟩ := h
  obtain ⟨before', hlog', hsince', habsent'⟩ := h'
  rcases List.append_eq_append_iff.mp (hlog.symm.trans hlog') with
    ⟨between, hbefore, hlater⟩ | ⟨between, hbefore, hlater⟩
  · obtain rfl := hnotBefore hbefore hlater hsince habsent'
    simpa using hlater
  · obtain rfl := hnotBefore hbefore hlater hsince' habsent
    simpa [eq_comm] using hlater

/-! Acceptance, one write after the other. -/

theorem accepted_add {x : Sample} (hx : x.trialId = id) :
    accepted id (since ++ [.add x]) = take (accepted id since) x := by
  simp [accepted, offered, hx]

theorem accepted_of_ne (hw : ∀ x, w = .add x → x.trialId ≠ id) :
    accepted id (since ++ [w]) = accepted id since := by
  cases w with
  | create other params => simp [accepted, offered]
  | add x => simp [accepted, offered, hw x rfl]
  | delete other => simp [accepted, offered]

theorem pairwise_take {taken : List Sample} {x : Sample}
    (h : taken.Pairwise fun a b => a.tick < b.tick) :
    (take taken x).Pairwise fun a b => a.tick < b.tick := by
  unfold take
  split
  · next hnew =>
      refine List.pairwise_append.mpr ⟨h, by simp, ?_⟩
      intro a ha b hb
      obtain rfl := List.mem_singleton.mp hb
      exact hnew a ha
  · exact h

theorem pairwise_foldl_take (offers taken : List Sample)
    (h : taken.Pairwise fun a b => a.tick < b.tick) :
    (offers.foldl take taken).Pairwise fun a b => a.tick < b.tick := by
  induction offers generalizing taken with
  | nil => exact h
  | cons x offers ih => exact ih _ (pairwise_take h)

theorem pairwise_accepted (id : String) (log : Log) :
    (accepted id log).Pairwise fun a b => a.tick < b.tick :=
  pairwise_foldl_take _ _ .nil

theorem mem_foldl_take {offers taken : List Sample} {y : Sample}
    (h : y ∈ offers.foldl take taken) : y ∈ offers ∨ y ∈ taken := by
  induction offers generalizing taken with
  | nil => exact .inr h
  | cons x offers ih =>
      rcases ih h with hlater | htaken
      · exact .inl (List.mem_cons_of_mem x hlater)
      · unfold take at htaken
        split at htaken
        · rcases List.mem_append.mp htaken with htaken | hx
          · exact .inr htaken
          · exact .inl (List.mem_singleton.mp hx ▸ List.mem_cons_self)
        · exact .inr htaken

theorem trialId_of_mem_accepted {y : Sample} (h : y ∈ accepted id log) : y.trialId = id := by
  rcases mem_foldl_take h with hoffered | hnone
  · obtain ⟨w, _, hw⟩ := List.mem_filterMap.mp hoffered
    cases w with
    | create other params => simp at hw
    | add x =>
        by_cases hx : x.trialId = id
        · obtain rfl : x = y := by simpa [hx] using hw
          exact hx
        · simp [hx] at hw
    | delete other => simp at hw
  · simp at hnone

end Log

/-- In a list of samples with rising ticks the last tick is the greatest. -/
theorem tick_le_getLast? {samples : List Sample} {last : Sample}
    (h : samples.Pairwise fun a b => a.tick < b.tick) (hlast : samples.getLast? = some last)
    {y : Sample} (hy : y ∈ samples) : y.tick ≤ last.tick := by
  obtain ⟨before, rfl⟩ := List.getLast?_eq_some_iff.mp hlast
  rcases List.mem_append.mp hy with hbefore | hend
  · have hlt := (List.pairwise_append.mp h).2.2 y hbefore last (List.mem_singleton_self last)
    exact UInt64.le_of_lt hlt
  · rw [List.mem_singleton.mp hend]
    exact UInt64.le_refl _

/-- The tick of some sample of a trial that no other sample of it exceeds. -/
def GreatestTick (samples : List Sample) (tick : UInt64) : Prop :=
  (∃ x ∈ samples, x.tick = tick) ∧ ∀ x ∈ samples, x.tick ≤ tick

theorem greatestTick_iff {samples : List Sample} {greatest : UInt64}
    (h : samples.Pairwise fun a b => a.tick < b.tick) :
    GreatestTick samples greatest ↔
      ∃ last, samples.getLast? = some last ∧ last.tick = greatest := by
  constructor
  · rintro ⟨⟨x, hx, rfl⟩, hbound⟩
    cases hlast : samples.getLast? with
    | none => simp [List.getLast?_eq_none_iff.mp hlast] at hx
    | some last =>
        refine ⟨last, rfl, ?_⟩
        exact UInt64.le_antisymm (hbound last (List.mem_of_getLast? hlast))
          (tick_le_getLast? h hlast hx)
  · rintro ⟨last, hlast, rfl⟩
    exact ⟨⟨last, List.mem_of_getLast? hlast, rfl⟩, fun x hx => tick_le_getLast? h hlast hx⟩

/-- Comparing with the last sample is comparing with all of them. -/
theorem record_samples {t : Trial} {x : Sample}
    (h : t.samples.Pairwise fun a b => a.tick < b.tick) :
    t.record x = { t with samples := Log.take t.samples x } := by
  have hadmits : t.Admits x.tick ↔ ∀ y ∈ t.samples, y.tick < x.tick := by
    constructor
    · intro hlast y hy
      cases hend : t.samples.getLast? with
      | none => simp [List.getLast?_eq_none_iff.mp hend] at hy
      | some last => exact UInt64.lt_of_le_of_lt (tick_le_getLast? h hend hy) (hlast last hend)
    · intro hall last hlast
      exact hall last (List.mem_of_getLast? hlast)
  by_cases hx : t.Admits x.tick
  · simp only [Trial.record, Log.take, if_pos hx, if_pos (hadmits.mp hx)]
  · simp only [Trial.record, Log.take, if_neg hx, if_neg (mt hadmits.mpr hx)]

namespace Log

/-- What a log says of a trial. -/
def Tells (log : Log) (id : String) : Option Trial → Prop
  | none => ¬ log.Present id
  | some t => ∃ since, log.Opened id t.params since ∧ accepted id since = t.samples

variable {log : Log} {id : String} {w : Write} {t? : Option Trial}

/-- A write about another trial adds nothing to what a log says of this one. -/
theorem Tells.other (h : log.Tells id t?) (hw : id ≠ w.trial) : (log ++ [w]).Tells id t? := by
  have hdelete : w ≠ .delete id := by
    rintro rfl
    exact hw rfl
  cases t? with
  | none =>
      intro hpresent
      rcases present_append_singleton.mp hpresent with ⟨params, rfl⟩ | ⟨hpresent, _⟩
      · exact hw rfl
      · exact h hpresent
  | some t =>
      obtain ⟨since, hopened, hsamples⟩ := h
      refine ⟨since ++ [w], hopened.append_singleton hdelete, ?_⟩
      rw [accepted_of_ne, hsamples]
      rintro x rfl
      exact Ne.symm hw

/-- What a log says of a trial after one more write about it. -/
theorem Tells.effect (h : log.Tells w.trial t?) : (log ++ [w]).Tells w.trial (w.effect t?) := by
  cases w with
  | create id params =>
      cases t? with
      | none => exact ⟨[], opened_create h, rfl⟩
      | some t =>
          obtain ⟨since, hopened, hsamples⟩ := h
          refine ⟨since ++ [.create id params], hopened.append_singleton (by simp), ?_⟩
          rw [accepted_of_ne (by simp), hsamples]
  | add x =>
      cases t? with
      | none =>
          intro hpresent
          rcases present_append_singleton.mp hpresent with ⟨params, hw⟩ | ⟨hpresent, _⟩
          · cases hw
          · exact h hpresent
      | some t =>
          obtain ⟨since, hopened, hsamples⟩ := h
          have hrecord : t.record x = { t with samples := take t.samples x } :=
            record_samples (hsamples ▸ pairwise_accepted x.trialId since)
          refine ⟨since ++ [.add x], ?_, ?_⟩
          · simp only [hrecord]
            exact hopened.append_singleton (by simp)
          · calc
              accepted x.trialId (since ++ [.add x])
                = take (accepted x.trialId since) x := accepted_add rfl
              _ = take t.samples x := congrArg (take · x) hsamples
              _ = (t.record x).samples := by rw [hrecord]
  | delete id =>
      intro hpresent
      rcases present_append_singleton.mp hpresent with ⟨params, hw⟩ | ⟨_, hw⟩
      · cases hw
      · exact hw rfl

end Log

/-- A store holds of each trial what its log says of it. -/
theorem tells_ofLog (log : Log) (id : String) : log.Tells id ((ofLog log).get? id) := by
  induction log using List.reverseRecOn with
  | nil =>
      rintro ⟨before, params, since, hlog, _⟩
      simp at hlog
  | append_singleton log w ih =>
      rw [ofLog_append_singleton, get?_write]
      split
      · next hid =>
          subst hid
          exact ih.effect
      · next hid => exact ih.other hid

section

variable {log : Log} {id : String}

theorem get?_ofLog_eq_some_iff {t : Trial} :
    (ofLog log).get? id = some t ↔
      ∃ since, log.Opened id t.params since ∧ Log.accepted id since = t.samples := by
  have htells := tells_ofLog log id
  cases hget : (ofLog log).get? id with
  | none =>
      rw [hget] at htells
      simp only [reduceCtorEq, false_iff]
      rintro ⟨since, hopened, _⟩
      exact htells hopened.present
  | some held =>
      rw [hget] at htells
      obtain ⟨since, hopened, hsamples⟩ := htells
      constructor
      · rintro h
        obtain rfl := Option.some.inj h
        exact ⟨since, hopened, hsamples⟩
      · rintro ⟨since', hopened', hsamples'⟩
        obtain ⟨hparams, rfl⟩ := hopened.unique hopened'
        cases held
        cases t
        simp_all

/-- What a store answers about a trial follows from the create that made it and what came since. -/
theorem map_find_ofLog_eq_ok_iff {α : Type} {f : Trial → α} {a : α} :
    f <$> (ofLog log).find id = .ok a ↔
      ∃ params since, log.Opened id params since ∧ f ⟨params, Log.accepted id since⟩ = a := by
  rw [map_find_eq_ok_iff]
  constructor
  · rintro ⟨⟨params, samples⟩, hget, rfl⟩
    obtain ⟨since, hopened, rfl⟩ := get?_ofLog_eq_some_iff.mp hget
    exact ⟨params, since, hopened, rfl⟩
  · rintro ⟨params, since, hopened, rfl⟩
    exact ⟨_, get?_ofLog_eq_some_iff.mpr ⟨since, hopened, rfl⟩, rfl⟩

theorem mem_ids_ofLog : id ∈ (ofLog log).ids ↔ log.Present id := by
  have htells := tells_ofLog log id
  rw [mem_ids]
  cases hget : (ofLog log).get? id with
  | none =>
      rw [hget] at htells
      have habsent : ¬ log.Present id := htells
      simpa using habsent
  | some held =>
      rw [hget] at htells
      obtain ⟨since, hopened, _⟩ := htells
      simpa using hopened.present

/-- The ticks of a stored trial rise, and its samples name it. -/
theorem samples_ofLog {t : Trial} (h : (ofLog log).get? id = some t) :
    (t.samples.Pairwise fun a b => a.tick < b.tick) ∧ ∀ x ∈ t.samples, x.trialId = id := by
  obtain ⟨since, _, hsamples⟩ := get?_ofLog_eq_some_iff.mp h
  rw [← hsamples]
  exact ⟨Log.pairwise_accepted id since, fun x hx => Log.trialId_of_mem_accepted hx⟩

end

/-- A store and the log of the writes that were asked of it agree: on the trials and what they hold,
and on which writes are refused next, and why. -/
structure Refines (log : Log) (s : Store) : Prop where
  present : ∀ id, id ∈ s.ids ↔ log.Present id
  sorted : s.ids.Pairwise (· < ·)
  params : ∀ id params, s.params id = .ok params ↔ ∃ since, log.Opened id params since
  roster : ∀ id roster, s.roster id = .ok roster ↔
    ∃ params since, log.Opened id params since ∧ params.actors = roster
  samples : ∀ id samples, s.samples id = .ok samples ↔
    ∃ params since, log.Opened id params since ∧ Log.accepted id since = samples
  rising : ∀ id samples, s.samples id = .ok samples →
    samples.Pairwise fun a b => a.tick < b.tick
  named : ∀ id samples, s.samples id = .ok samples → ∀ x ∈ samples, x.trialId = id
  create : ∀ id params e, s.create id params = .error e ↔
    log.Present id ∧ e = .duplicateTrial id
  add : ∀ x e, s.add x = .error e ↔
    (¬ log.Present x.trialId ∧ e = .unknownTrial x.trialId) ∨
      ∃ samples greatest, s.samples x.trialId = .ok samples ∧ GreatestTick samples greatest ∧
        x.tick ≤ greatest ∧ e = .outOfOrderTick x.trialId x.tick greatest
  delete : ∀ id e, s.delete id = .error e ↔ ¬ log.Present id ∧ e = .unknownTrial id

/-- Whatever writes are asked of an empty store, it holds what their log says. A trial is there when
it was created and not deleted since, with the parameters of the create that made it and, in their
order, the samples offered since whose tick exceeded all that were accepted before. A create is
refused when the trial is there, a deletion and an addition when it is not, and an addition
otherwise exactly when its tick does not exceed the greatest tick stored. -/
theorem ofLog_refines (log : Log) : Refines log (ofLog log) where
  present := fun id => mem_ids_ofLog
  sorted := pairwise_ids _
  params := by
    intro id params
    rw [Store.params, map_find_ofLog_eq_ok_iff]
    simp
  roster := fun _ _ => map_find_ofLog_eq_ok_iff
  samples := fun _ _ => map_find_ofLog_eq_ok_iff
  rising := by
    intro id samples h
    obtain ⟨t, hget, rfl⟩ := map_find_eq_ok_iff.mp h
    exact (samples_ofLog hget).1
  named := by
    intro id samples h
    obtain ⟨t, hget, rfl⟩ := map_find_eq_ok_iff.mp h
    exact (samples_ofLog hget).2
  create := by
    intro id params e
    rw [create_eq_error_iff, mem_ids_ofLog]
  add := by
    intro x e
    rw [add_eq_error_iff, ← not_mem_ids, mem_ids_ofLog]
    refine or_congr Iff.rfl ?_
    constructor
    · rintro ⟨t, last, hget, hlast, hlate, he⟩
      exact ⟨t.samples, last.tick, map_find_eq_ok_iff.mpr ⟨t, hget, rfl⟩,
        (greatestTick_iff (samples_ofLog hget).1).mpr ⟨last, hlast, rfl⟩, hlate, he⟩
    · rintro ⟨samples, greatest, hsamples, hgreatest, hlate, he⟩
      obtain ⟨t, hget, rfl⟩ := map_find_eq_ok_iff.mp hsamples
      obtain ⟨last, hlast, rfl⟩ := (greatestTick_iff (samples_ofLog hget).1).mp hgreatest
      exact ⟨t, last, hget, hlast, hlate, he⟩
  delete := by
    intro id e
    rw [delete_eq_error_iff, mem_ids_ofLog]

end TrialView.Store
