import TrialView.Proofs.Session.Run

/-!
Families of subscriptions. A family is a subscription with its clones, direct and indirect, and the
streams opened from any of them. Who belongs to it is told from the actions and their answers alone:
a clone of a member is a member, a stream opened from a member is one of its streams, and a name
that is given to something else leaves the family. The members of a family share a scope, which is
the one that was built when the first of them was made, and a tally, which no other subscription
has.
-/

namespace TrialView

open Session

/-- The samples that a store has of a trial, none if the trial is not there. -/
def Store.stored (s : Store) (trial : String) : List Sample :=
  match s.samples trial with
  | .ok samples => samples
  | .error _ => []

/-- The sample that a stream yields next, none if it is at its end or not there. -/
def Session.awaited (s : Session) (name : String) : List Sample :=
  match s.streams.lookup name with
  | some st => st.pending.take 1
  | none => []

/-- The names of the members and of the streams of a family, and the samples that were projected
through it since its tally was last reset. -/
structure Family where
  members : List String
  streams : List String
  projected : List Sample
deriving Repr, DecidableEq

namespace Family

/-- The family of a subscription that has just been made. -/
def founded (name : String) : Family := ⟨[name], [], []⟩

/-- The names of a family after a name was given to something that belongs to it or does not. -/
def rename (name : String) (belongs : Bool) (names : List String) : List String :=
  if belongs then name :: names else names.filter (· ≠ name)

/-- Who belongs to a family after an action that was answered. -/
def follow (f : Family) : Action → Answer → Family
  | .subscribe name _ _ _, .scope _ => { f with members := rename name false f.members }
  | .clone source name, .done =>
      { f with members := rename name (f.members.contains source) f.members }
  | .openStream source _ name, .opened _ =>
      { f with streams := rename name (f.members.contains source) f.streams }
  | _, _ => f

/-- The samples that an action projects through a family. -/
def projects (f : Family) (s : Session) : Action → List Sample
  | .project source x => if source ∈ f.members then [x] else []
  | .drain source trial => if source ∈ f.members then s.store.stored trial else []
  | .next name => if name ∈ f.streams then s.awaited name else []
  | _ => []

/-- An action resets the tally of a family. -/
def resets (f : Family) : Action → Bool
  | .reset source => f.members.contains source
  | _ => false

/-- A family after an action in a session that was answered. -/
def after (f : Family) (s : Session) (a : Action) (answer : Answer) : Family :=
  { f.follow a answer with
    projected := if f.resets a then [] else f.projected ++ f.projects s a }

/-- A family after actions in a session. -/
def run (f : Family) (s : Session) : List Action → Family
  | [] => f
  | a :: rest => (f.after s a (s.step a).2).run (s.step a).1 rest

theorem mem_rename {name other : String} {belongs : Bool} {names : List String} :
    other ∈ rename name belongs names ↔
      if other = name then belongs = true else other ∈ names := by
  by_cases h : other = name <;> cases belongs <;> simp [rename, h]

/-- Some names are those that stand for a value with a property. -/
def Stand {α : Type} (names : List String) (entries : List (String × α)) (p : α → Prop) : Prop :=
  ∀ name, name ∈ names ↔ ∃ value, entries.lookup name = some value ∧ p value

section

variable {α : Type} {names : List String} {entries : List (String × α)} {p : α → Prop}
  {name : String} {value : α}

theorem Stand.rename {belongs : Bool} (h : Stand names entries p)
    (hvalue : belongs = true ↔ p value) :
    Stand (rename name belongs names) (assign name value entries) p := by
  intro other
  rw [mem_rename, lookup_assign]
  by_cases hother : other = name
  · simp [hother, hvalue]
  · simpa [hother] using h other

/-- A name may get a new value that is no other than the old one as far as the property goes. -/
theorem Stand.assign {old : α} (h : Stand names entries p) (hold : entries.lookup name = some old)
    (hvalue : p value ↔ p old) : Stand names (assign name value entries) p := by
  intro other
  rw [lookup_assign]
  by_cases hother : other = name
  · subst hother
    simp [h other, hold, hvalue]
  · simpa [hother] using h other

end

/-- A family and the subscription that its members stand for, in a session. -/
structure Shares (f : Family) (kin : Subscription) (s : Session) : Prop where
  members : Stand f.members s.subscriptions (· = kin)
  streams : Stand f.streams s.streams (·.subscription = kin)
  /-- Nobody else has the tally of the family. -/
  apart : ∀ name sub, s.subscriptions.lookup name = some sub → sub.tally = kin.tally → sub = kin
  streamsApart : ∀ name st, s.streams.lookup name = some st →
    st.subscription.tally = kin.tally → st.subscription = kin
  counted : s.tallies[kin.tally]? = some (Tally.zero.countAll kin.scope f.projected)

end Family

namespace Family

variable {f : Family} {kin : Subscription} {s next : Session} {a : Action} {answer : Answer}

/-- A subscription that was just made is the only one with its tally. -/
theorem shares_founded (hs : s.Numbered) (name : String) (scope : Scope) :
    (founded name).Shares ⟨scope, s.tallies.length⟩ (s.subscribe name scope) := by
  have hother (other : String) (sub : Subscription) (h : s.subscriptions.lookup other = some sub) :
      sub.tally ≠ s.tallies.length :=
    Nat.ne_of_lt (hs.subscriptions other sub h)
  have hstream (other : String) (st : Stream) (h : s.streams.lookup other = some st) :
      st.subscription.tally ≠ s.tallies.length :=
    Nat.ne_of_lt (hs.streams other st h)
  constructor
  · intro other
    simp only [founded, subscribe, List.mem_singleton, lookup_assign]
    by_cases h : other = name
    · simp [h]
    · simp only [h, if_false, false_iff]
      rintro ⟨sub, hlookup, rfl⟩
      exact hother other _ hlookup rfl
  · intro other
    simp only [founded, List.not_mem_nil, false_iff]
    rintro ⟨st, hlookup, hkin⟩
    exact hstream other st hlookup (hkin ▸ rfl)
  · refine forall_lookup_assign (fun _ => rfl) ?_
    intro other sub hlookup htally
    exact absurd htally (hother other sub hlookup)
  · intro other st hlookup htally
    exact absurd htally (hstream other st hlookup)
  · simp [subscribe, founded, Tally.countAll]

/-- An action that does not concern a family leaves it as it is. -/
theorem after_eq_self (hfollow : f.follow a answer = f) (hprojects : f.projects s a = [])
    (hresets : f.resets a = false) : f.after s a answer = f := by
  simp [after, hfollow, hprojects, hresets]

theorem after_write (h : ∃ w, a.write? = some w) : f.after s a answer = f := by
  obtain ⟨w, hw⟩ := h
  apply after_eq_self
  all_goals cases a <;> simp_all [Action.write?, follow, projects, resets]

theorem after_ask (h : a.Asks) : f.after s a answer = f := by
  apply after_eq_self
  all_goals cases a <;> simp_all [Action.Asks, follow, projects, resets]

theorem after_unknownTrial {trial : String} {e : Error} (h : a.Streams trial)
    (htrial : trial ∉ s.store.ids) : f.after s a (.failure e) = f := by
  have hstored : s.store.stored trial = [] := by
    have hnone := Store.not_mem_ids.mp htrial
    simp [Store.stored, Store.samples, Store.find, hnone, Functor.map, Except.map]
  apply after_eq_self
  all_goals cases a <;> simp_all [Action.Streams, follow, projects, resets]

theorem Shares.after_unknownSource (h : f.Shares kin s) {source : String}
    (hthrough : a.Through source) (hsource : s.subscriptions.lookup source = none) :
    f.after s a (.unknownName source) = f := by
  have hmember : source ∉ f.members := by simp [h.members source, hsource]
  apply after_eq_self
  all_goals cases a <;> simp_all [Action.Through, follow, projects, resets]

theorem after_refuse {name : String} {request : Request} {mode : MatchMode} {audience : Audience}
    (h : ∀ scope, answer ≠ .scope scope) :
    f.after s (.subscribe name request mode audience) answer = f := by
  apply after_eq_self
  · cases answer <;> simp_all [follow]
  · rfl
  · rfl

theorem after_awaiting_nothing {name : String} (h : s.awaited name = []) :
    f.after s (.next name) answer = f := by
  apply after_eq_self
  · rfl
  · simp [projects, h]
  · rfl

/-- The tally of a family after projections that were counted for a subscription. -/
theorem Shares.count (h : f.Shares kin s) {sub : Subscription} (samples : List Sample)
    (hsub : sub.tally = kin.tally → sub = kin) :
    (s.count sub samples).tallies[kin.tally]? = some (Tally.zero.countAll kin.scope
      (f.projected ++ if sub = kin then samples else [])) := by
  by_cases hkin : sub = kin
  · subst hkin
    simp [Session.count, updateTally, h.counted, Tally.countAll]
  · have htally : sub.tally ≠ kin.tally := mt hsub hkin
    simp [Session.count, updateTally, h.counted, htally, hkin]

/-- Whatever is done in a session, a family stays one. -/
theorem Shares.after (h : f.Shares kin s) (hmove : Move s a answer next) :
    (f.after s a answer).Shares kin next := by
  have hbound : kin.tally < s.tallies.length := (List.getElem?_eq_some_iff.mp h.counted).1
  cases hmove with
  | write hwrite =>
      rw [after_write ⟨_, hwrite⟩]
      exact ⟨h.members, h.streams, h.apart, h.streamsApart, h.counted⟩
  | ask hasks =>
      rw [after_ask hasks]
      exact h
  | refuse hanswer =>
      rw [after_refuse hanswer]
      exact h
  | unknownTrial hstreams htrial =>
      rw [after_unknownTrial hstreams htrial]
      exact h
  | unknownSource hthrough hsource =>
      rw [h.after_unknownSource hthrough hsource]
      exact h
  | unknownStream hstream =>
      rw [after_awaiting_nothing (by simp [awaited, hstream])]
      exact h
  | pullEnd hstream =>
      rw [after_awaiting_nothing (by simp [awaited, hstream])]
      exact h
  | @subscribe name request mode audience scope hgives =>
      -- The new subscription has a tally that none had before.
      have hnew : ¬ (⟨scope, s.tallies.length⟩ : Subscription) = kin := by
        rintro rfl
        exact Nat.lt_irrefl _ hbound
      have hmembers : Stand (rename name false f.members)
          (assign name ⟨scope, s.tallies.length⟩ s.subscriptions) (· = kin) :=
        h.members.rename (by simpa using hnew)
      constructor
      · exact hmembers
      · exact h.streams
      · exact forall_lookup_assign (fun htally => absurd htally (Nat.ne_of_gt hbound)) h.apart
      · exact h.streamsApart
      · simpa [subscribe, Family.after, follow, resets, projects,
          List.getElem?_append_left hbound] using h.counted
  | @clone source name sub hsource =>
      have hmember : f.members.contains source = true ↔ sub = kin := by
        simp [h.members source, hsource]
      constructor
      · exact h.members.rename hmember
      · exact h.streams
      · exact forall_lookup_assign (h.apart source sub hsource) h.apart
      · exact h.streamsApart
      · simpa [Family.after, follow, resets, projects] using h.counted
  | @openStream source trial name sub samples hsource hsamples =>
      have hmember : f.members.contains source = true ↔ sub = kin := by
        simp [h.members source, hsource]
      constructor
      · exact h.members
      · exact h.streams.rename hmember
      · exact h.apart
      · exact forall_lookup_assign (p := fun st : Stream => st.subscription.tally = kin.tally →
          st.subscription = kin) (h.apart source sub hsource) h.streamsApart
      · simpa [Family.after, follow, resets, projects] using h.counted
  | @project source x sub answer hsource =>
      refine ⟨h.members, h.streams, h.apart, h.streamsApart, ?_⟩
      rw [h.count [x] (h.apart source sub hsource)]
      simp [Family.after, resets, projects, h.members source, hsource]
  | @drain source trial sub samples answer hsource hsamples =>
      refine ⟨h.members, h.streams, h.apart, h.streamsApart, ?_⟩
      rw [h.count samples (h.apart source sub hsource)]
      simp [Family.after, resets, projects, h.members source, hsource, Store.stored, hsamples]
  | @pull name sub x rest hstream =>
      have hsub : sub.tally = kin.tally → sub = kin := h.streamsApart name _ hstream
      constructor
      · exact h.members
      · exact h.streams.assign hstream Iff.rfl
      · exact h.apart
      · exact forall_lookup_assign (p := fun st : Stream => st.subscription.tally = kin.tally →
          st.subscription = kin) hsub h.streamsApart
      · change (s.count sub [x]).tallies[kin.tally]? = _
        rw [h.count [x] hsub]
        simp [Family.after, resets, projects, h.streams name, hstream, awaited]
  | @reset source sub hsource =>
      refine ⟨h.members, h.streams, h.apart, h.streamsApart, ?_⟩
      by_cases hkin : sub = kin
      · subst hkin
        have hmember : source ∈ f.members := (h.members source).mpr ⟨_, hsource, rfl⟩
        simp [updateTally, h.counted, Family.after, resets, hmember, Tally.countAll]
      · have htally : sub.tally ≠ kin.tally := mt (h.apart source sub hsource) hkin
        have hmember : source ∉ f.members := by simp [h.members source, hsource, hkin]
        simp [updateTally, h.counted, Family.after, resets, projects, hmember, htally]

theorem Shares.run (h : f.Shares kin s) (actions : List Action) :
    (f.run s actions).Shares kin (s.run actions).1 := by
  induction actions generalizing f s with
  | nil => exact h
  | cons a actions ih => exact ih (h.after (move_step s a))

end Family

namespace Session

theorem step_subscribe {s : Session} {name : String} {request : Request} {mode : MatchMode}
    {audience : Audience} {scope : Scope} (h : audience.Gives s.store request mode scope) :
    s.step (.subscribe name request mode audience) = (s.subscribe name scope, .scope scope) := by
  cases audience with
  | trial id => simp only [step, ofTrial_eq_ok_iff.mpr h]
  | roster actors =>
      have hscope : Scope.ofRequest request actors mode = .ok scope := h
      simp only [step, hscope]
  | filters actors fields =>
      obtain rfl : scope = ⟨actors, fields⟩ := h
      rfl

/-- A subscription was made by an action of the past, and got its scope there. -/
def Born (past : List Action) (kin : Subscription) : Prop :=
  ∃ before name request mode audience since,
    past = before ++ .subscribe name request mode audience :: since ∧
    audience.Gives (reached before).store request mode kin.scope ∧
    kin.tally = (reached before).tallies.length

theorem Born.append_singleton {past : List Action} {kin : Subscription} (h : Born past kin)
    (a : Action) : Born (past ++ [a]) kin := by
  obtain ⟨before, name, request, mode, audience, since, rfl, hgives, htally⟩ := h
  exact ⟨before, name, request, mode, audience, since ++ [a], by simp, hgives, htally⟩

theorem born_of_lookup {past : List Action} {source : String} {kin : Subscription}
    (h : (reached past).subscriptions.lookup source = some kin) : Born past kin := by
  induction past using List.reverseRecOn generalizing source kin with
  | nil => simp [reached, run, empty] at h
  | append_singleton past a ih =>
      have hold (other : String) (sub : Subscription)
          (hlookup : (reached past).subscriptions.lookup other = some sub) :
          Born (past ++ [a]) sub :=
        (ih hlookup).append_singleton a
      rw [reached_append_singleton] at h
      have hmove := move_step (reached past) a
      revert h
      generalize ((reached past).step a).1 = next at hmove ⊢
      generalize ((reached past).step a).2 = answer at hmove
      intro h
      cases hmove with
      | @subscribe name request mode audience scope hgives =>
          refine forall_lookup_assign ?_ hold source kin h
          exact ⟨past, name, request, mode, audience, [], rfl, hgives, rfl⟩
      | clone hsource => exact forall_lookup_assign (hold _ _ hsource) hold source kin h
      | _ => exact hold source kin h

end Session

namespace Family

/-- The family of a subscription, from the action that made it on. -/
theorem shares_run_founded {before since : List Action} {name : String} {request : Request}
    {mode : MatchMode} {audience : Audience} {scope : Scope}
    (h : audience.Gives (reached before).store request mode scope) :
    ((founded name).run (reached (before ++ [.subscribe name request mode audience])) since).Shares
      ⟨scope, (reached before).tallies.length⟩
      (reached (before ++ .subscribe name request mode audience :: since)) := by
  have hmade : reached (before ++ [.subscribe name request mode audience]) =
      (reached before).subscribe name scope := by
    rw [reached_append_singleton, step_subscribe h]
  have hreached : reached (before ++ .subscribe name request mode audience :: since) =
      ((reached (before ++ [.subscribe name request mode audience])).run since).1 := by
    rw [List.append_cons, reached_append]
  rw [hreached, hmade]
  exact (shares_founded (numbered_reached before) name scope).run since

/-- A name stands for a member of the family of a subscription that got a scope when it was made. -/
def Descends (past : List Action) (source : String) (scope : Scope) : Prop :=
  ∃ before name request mode audience since,
    past = before ++ .subscribe name request mode audience :: since ∧
    audience.Gives (reached before).store request mode scope ∧
    source ∈ ((founded name).run
      (reached (before ++ [.subscribe name request mode audience])) since).members

/-- Every subscription belongs to the family of one that was made. -/
theorem descends_of_lookup {past : List Action} {source : String} {kin : Subscription}
    (h : (reached past).subscriptions.lookup source = some kin) :
    Descends past source kin.scope := by
  obtain ⟨before, name, request, mode, audience, since, rfl, hgives, htally⟩ := born_of_lookup h
  refine ⟨before, name, request, mode, audience, since, rfl, hgives, ?_⟩
  have hkin : kin = ⟨kin.scope, (reached before).tallies.length⟩ := by
    rw [← htally]
  exact ((shares_run_founded hgives).members source).mpr ⟨kin, h, hkin⟩

end Family

end TrialView
