import TrialView.Session
import TrialView.Proofs.Store.Log

/-!
What one action does to a session, and what a run of actions leads to. `Move` lists the outcomes of
an action with all that has to hold for each of them, so that whoever follows a session looks at
these cases and not at the steps themselves. The store of a session is the one that the writes among
its actions lead to, whatever else was done between them.
-/

namespace TrialView

theorem lookup_assign {α : Type} (name other : String) (a : α) (entries : List (String × α)) :
    (assign name a entries).lookup other =
      if other = name then some a else entries.lookup other := by
  rw [assign, Store.lookup_entry]
  by_cases h : other = name
  · simp [h]
  · rw [if_neg h, if_neg h, Store.lookup_filter_ne, if_neg h]

/-- What holds of all values that names stand for holds of them after one more got a name. -/
theorem forall_lookup_assign {α : Type} {p : α → Prop} {entries : List (String × α)}
    {name : String} {value : α} (hvalue : p value)
    (h : ∀ other v, entries.lookup other = some v → p v) :
    ∀ other v, (assign name value entries).lookup other = some v → p v := by
  intro other v hlookup
  rw [lookup_assign] at hlookup
  split at hlookup
  · exact Option.some.inj hlookup ▸ hvalue
  · exact h other v hlookup

namespace Tally

/-- Counts the projections of samples one after the other. -/
def countAll (t : Tally) (scope : Scope) (samples : List Sample) : Tally :=
  samples.foldl (fun t x => t.count (scope.projectWithReport x) .zero) t

end Tally

/-- What a stream through a scope yields for a sample. -/
def Scope.item (scope : Scope) (x : Sample) : Item :=
  (scope.project x).mapError .projection

/-- A subscription for an audience gets a scope. The roster that counts is the one that is supplied
when the subscription is made; filters that are there already are taken as they are. -/
def Audience.Gives (store : Store) (request : Request) (mode : MatchMode) (scope : Scope) :
    Audience → Prop
  | .trial id => ∃ roster, store.roster id = .ok roster ∧
      Scope.ofRequest request roster mode = .ok scope
  | .roster actors => Scope.ofRequest request actors mode = .ok scope
  | .filters actors fields => scope = ⟨actors, fields⟩

namespace Action

/-- What an action asks of the store. -/
def write? : Action → Option Store.Write
  | .create trial p => some (.create trial p)
  | .add x => some (.add x)
  | .delete trial => some (.delete trial)
  | _ => none

/-- An action that only asks a question. -/
def Asks : Action → Prop
  | .ids | .params _ | .roster _ | .samples _ | .tally _ => True
  | _ => False

/-- An action that does something through the subscription of a name. -/
def Through (source : String) : Action → Prop
  | .clone other _ | .project other _ | .drain other _ | .openStream other _ _ | .reset other =>
      other = source
  | _ => False

/-- An action that reads a trial on behalf of a subscription. -/
def Streams (trial : String) : Action → Prop
  | .drain _ other | .openStream _ other _ => other = trial
  | _ => False

variable {a : Action} {source trial : String}

theorem Asks.write?_eq_none (h : a.Asks) : a.write? = none := by
  cases a <;> simp_all [Asks, write?]

theorem Through.write?_eq_none (h : a.Through source) : a.write? = none := by
  cases a <;> simp_all [Through, write?]

theorem Streams.write?_eq_none (h : a.Streams trial) : a.write? = none := by
  cases a <;> simp_all [Streams, write?]

end Action

namespace Session

/-- The session after projections of samples for a subscription were counted. -/
def count (s : Session) (sub : Subscription) (samples : List Sample) : Session :=
  s.updateTally sub.tally (·.countAll sub.scope samples)

theorem project_fst (s : Session) (sub : Subscription) (x : Sample) :
    (s.project sub x).1 = s.count sub [x] := rfl

theorem count_nil (s : Session) (sub : Subscription) : s.count sub [] = s := by
  have hsame : s.tallies.modify sub.tally (fun t => t) = s.tallies := List.modify_id ..
  simp only [count, updateTally, Tally.countAll, List.foldl_nil, hsame]

theorem count_count (s : Session) (sub : Subscription) (first second : List Sample) :
    (s.count sub first).count sub second = s.count sub (first ++ second) := by
  simp only [count, updateTally, List.modify_modify_eq, Tally.countAll, List.foldl_append]
  rfl

theorem projectAll_fst (s : Session) (sub : Subscription) (samples : List Sample) :
    (s.projectAll sub samples).1 = s.count sub samples := by
  induction samples generalizing s with
  | nil => exact (s.count_nil sub).symm
  | cons x samples ih =>
      calc
        (s.projectAll sub (x :: samples)).1
          = ((s.project sub x).1.projectAll sub samples).1 := rfl
        _ = (s.count sub [x]).count sub samples := ih _
        _ = s.count sub (x :: samples) := count_count s sub [x] samples

/-- The outcomes of an action: what is answered, and the session after it. -/
inductive Move (s : Session) : Action → Answer → Session → Prop
  | write {a w answer} (hwrite : a.write? = some w) :
      Move s a answer { s with store := s.store.write w }
  | ask {a answer} (hasks : a.Asks) : Move s a answer s
  | subscribe {name request mode audience scope}
      (hgives : audience.Gives s.store request mode scope) :
      Move s (.subscribe name request mode audience) (.scope scope) (s.subscribe name scope)
  | refuse {name request mode audience answer} (hanswer : ∀ scope, answer ≠ .scope scope) :
      Move s (.subscribe name request mode audience) answer s
  | clone {source name sub} (hsource : s.subscriptions.lookup source = some sub) :
      Move s (.clone source name) .done
        { s with subscriptions := assign name sub s.subscriptions }
  | project {source x sub answer} (hsource : s.subscriptions.lookup source = some sub) :
      Move s (.project source x) answer (s.count sub [x])
  | drain {source trial sub samples answer} (hsource : s.subscriptions.lookup source = some sub)
      (hsamples : s.store.samples trial = .ok samples) :
      Move s (.drain source trial) answer (s.count sub samples)
  | openStream {source trial name sub samples}
      (hsource : s.subscriptions.lookup source = some sub)
      (hsamples : s.store.samples trial = .ok samples) :
      Move s (.openStream source trial name) (.opened samples.length)
        { s with streams := assign name ⟨sub, samples⟩ s.streams }
  | pull {name sub x rest} (hstream : s.streams.lookup name = some ⟨sub, x :: rest⟩) :
      Move s (.next name) (.pulled (some (sub.scope.item x)) rest.length)
        { s.count sub [x] with streams := assign name ⟨sub, rest⟩ s.streams }
  | pullEnd {name sub} (hstream : s.streams.lookup name = some ⟨sub, []⟩) :
      Move s (.next name) (.pulled none 0) s
  | reset {source sub} (hsource : s.subscriptions.lookup source = some sub) :
      Move s (.reset source) .done (s.updateTally sub.tally fun _ => .zero)
  | unknownTrial {a trial} (hstreams : a.Streams trial) (htrial : trial ∉ s.store.ids) :
      Move s a (.failure (.store (.unknownTrial trial))) s
  | unknownSource {a source} (hthrough : a.Through source)
      (hsource : s.subscriptions.lookup source = none) : Move s a (.unknownName source) s
  | unknownStream {name} (hstream : s.streams.lookup name = none) :
      Move s (.next name) (.unknownName name) s

variable {s : Session}

/-! The helpers that the steps are made of give such outcomes. -/

theorem move_updateStore {a : Action} {w : Store.Write} (h : a.write? = some w) :
    Move s a (s.updateStore (s.store.attempt w)).2 (s.updateStore (s.store.attempt w)).1 := by
  cases hattempt : s.store.attempt w with
  | ok store =>
      rw [← Store.write_of_ok hattempt]
      exact .write h
  | error e =>
      have hmove : Move s a (.storeFailure e) { s with store := s.store.write w } := .write h
      rwa [Store.write_of_error hattempt] at hmove

theorem move_ask {α : Type} {a : Action} (h : a.Asks) (answer : α → Answer)
    (outcome : Except StoreError α) :
    Move s a (s.ask answer outcome).2 (s.ask answer outcome).1 := by
  cases outcome with
  | ok value => exact .ask h
  | error e => exact .ask h

theorem move_withSubscription {a : Action} {source : String} (h : a.Through source)
    {act : Subscription → Session × Answer}
    (hact : ∀ sub, s.subscriptions.lookup source = some sub → Move s a (act sub).2 (act sub).1) :
    Move s a (s.withSubscription source act).2 (s.withSubscription source act).1 := by
  unfold withSubscription
  cases hsource : s.subscriptions.lookup source with
  | none => exact .unknownSource h hsource
  | some sub => exact hact sub hsource

theorem ofTrial_eq_ok_iff {request : Request} {store : Store} {id : String} {mode : MatchMode}
    {scope : Scope} :
    Scope.ofTrial request store id mode = .ok scope ↔
      (Audience.trial id).Gives store request mode scope := by
  simp only [Scope.ofTrial, Audience.Gives, bind, Except.bind]
  cases store.roster id with
  | error e => simp [Except.mapError]
  | ok roster =>
      cases hscope : Scope.ofRequest request roster mode <;> simp [Except.mapError, hscope]

theorem move_subscribe (name : String) (request : Request) (mode : MatchMode)
    (audience : Audience) :
    Move s (.subscribe name request mode audience)
      (s.step (.subscribe name request mode audience)).2
      (s.step (.subscribe name request mode audience)).1 := by
  cases audience with
  | trial id =>
      simp only [step]
      cases hscope : Scope.ofTrial request s.store id mode with
      | ok scope => exact .subscribe (ofTrial_eq_ok_iff.mp hscope)
      | error e => exact .refuse (by simp)
  | roster actors =>
      simp only [step]
      cases hscope : Scope.ofRequest request actors mode with
      | ok scope => exact .subscribe hscope
      | error e => exact .refuse (by simp)
  | filters actors fields => exact .subscribe rfl

/-- The stream of a subscription holds the samples stored now; there is none on a trial that is not
there. -/
theorem stream_eq (s : Session) (sub : Subscription) (trial : String) :
    (∃ samples, s.store.samples trial = .ok samples ∧ s.stream sub trial = .ok ⟨sub, samples⟩) ∨
      (trial ∉ s.store.ids ∧ s.stream sub trial = .error (.store (.unknownTrial trial))) := by
  unfold stream
  cases hsamples : s.store.samples trial with
  | ok samples => exact .inl ⟨samples, rfl, rfl⟩
  | error e =>
      obtain ⟨habsent, rfl⟩ := Store.map_find_eq_error_iff.mp hsamples
      exact .inr ⟨Store.not_mem_ids.mpr habsent, rfl⟩

/-- Every step of a session is one of the outcomes. -/
theorem move_step (s : Session) (a : Action) : Move s a (s.step a).2 (s.step a).1 := by
  cases a with
  | create trial params => exact move_updateStore (w := .create trial params) rfl
  | add x => exact move_updateStore (w := .add x) rfl
  | delete trial => exact move_updateStore (w := .delete trial) rfl
  | ids => exact .ask trivial
  | params trial => exact move_ask (a := .params trial) trivial _ _
  | roster trial => exact move_ask (a := .roster trial) trivial _ _
  | samples trial => exact move_ask (a := .samples trial) trivial _ _
  | subscribe name request mode audience => exact move_subscribe name request mode audience
  | clone source name =>
      refine move_withSubscription (a := .clone source name) rfl ?_
      intro sub hsource
      exact .clone hsource
  | project source x =>
      refine move_withSubscription (a := .project source x) rfl ?_
      intro sub hsource
      have hnext : (s.project sub x).1 = s.count sub [x] := s.project_fst sub x
      cases hproject : s.project sub x with
      | mk next outcome =>
          obtain rfl : next = s.count sub [x] := by rw [← hnext, hproject]
          cases outcome with
          | ok projected => exact .project hsource
          | error e => exact .project hsource
  | drain source trial =>
      refine move_withSubscription (a := .drain source trial) rfl ?_
      intro sub hsource
      rcases s.stream_eq sub trial with ⟨samples, hsamples, hstream⟩ | ⟨habsent, hstream⟩
      · simp only [hstream, projectAll_fst]
        exact .drain hsource hsamples
      · simp only [hstream]
        exact .unknownTrial rfl habsent
  | openStream source trial name =>
      refine move_withSubscription (a := .openStream source trial name) rfl ?_
      intro sub hsource
      rcases s.stream_eq sub trial with ⟨samples, hsamples, hstream⟩ | ⟨habsent, hstream⟩
      · simp only [hstream]
        exact .openStream hsource hsamples
      · simp only [hstream]
        exact .unknownTrial rfl habsent
  | next name =>
      simp only [step]
      cases hlookup : s.streams.lookup name with
      | none => exact .unknownStream hlookup
      | some st =>
          obtain ⟨sub, pending⟩ := st
          cases pending with
          | nil => exact .pullEnd hlookup
          | cons x rest => exact .pull hlookup
  | tally source =>
      simp only [step, withSubscription]
      cases s.subscriptions.lookup source with
      | none => exact .ask trivial
      | some sub => exact .ask trivial
  | reset source =>
      refine move_withSubscription (a := .reset source) rfl ?_
      intro sub hsource
      exact .reset hsource

end Session

end TrialView
