import TrialView.Proofs.Session.Family
import TrialView.Proofs.Projection.View

/-!
What streams yield. A stream is a snapshot: the samples that its trial had when it was opened, seen
through the scope that its subscription got when it was made. The pulls on it are answered with
these samples one after the other and then with its end, whatever is done between them to the trial,
the subscription, its clones and other streams.
-/

namespace TrialView

/-- The answer to a pull on a stream of samples, after so many others. -/
def Answer.ofPull (scope : Scope) (samples : List Sample) (pulls : Nat) : Answer :=
  .pulled (samples[pulls]?.map scope.item) (samples.length - (pulls + 1))

/-- The sample that was pulled, if one was. -/
def Answer.pulled? : Answer → Option Sample
  | .pulled (some (.ok y)) _ => some y
  | _ => none

/-- An action opens a stream under a name. -/
def Action.Opens (name : String) (a : Action) : Prop :=
  ∃ source trial, a = .openStream source trial name

namespace Session

/-- The answers to the pulls on one stream among the answers to actions. -/
def pullAnswers (name : String) (actions : List Action) (answers : List Answer) : List Answer :=
  ((actions.zip answers).filter fun p => p.1 = .next name).map (·.2)

theorem pullAnswers_cons (name : String) (a : Action) (actions : List Action) (answer : Answer)
    (answers : List Answer) :
    pullAnswers name (a :: actions) (answer :: answers) =
      if a = .next name then answer :: pullAnswers name actions answers
      else pullAnswers name actions answers := by
  by_cases h : a = .next name <;> simp [pullAnswers, h]

variable {s next : Session} {a : Action} {answer : Answer} {name : String} {st : Stream}

/-- Only a pull on a stream changes it. -/
theorem Move.undisturbed (h : Move s a answer next) (hst : s.streams.lookup name = some st)
    (hopens : ¬ a.Opens name) (hpull : a ≠ .next name) :
    next.streams.lookup name = some st := by
  cases h with
  | @openStream source trial other sub samples hsource hsamples =>
      have hother : name ≠ other := by
        rintro rfl
        exact hopens ⟨source, trial, rfl⟩
      rw [lookup_assign, if_neg hother, hst]
  | @pull other sub x rest hstream =>
      have hother : name ≠ other := by
        rintro rfl
        exact hpull rfl
      rw [lookup_assign, if_neg hother, hst]
  | _ => exact hst

/-- A pull takes the next sample off a stream and stays at its end. -/
theorem Move.pulled (h : Move s (.next name) answer next)
    (hst : s.streams.lookup name = some st) :
    answer = .ofPull st.subscription.scope st.pending 0 ∧
      next.streams.lookup name = some ⟨st.subscription, st.pending.tail⟩ := by
  cases h with
  | write hwrite => cases hwrite
  | ask hasks => exact hasks.elim
  | unknownTrial hstreams => exact hstreams.elim
  | unknownSource hthrough => exact hthrough.elim
  | unknownStream hstream => simp [hst] at hstream
  | pull hstream =>
      obtain rfl := Option.some.inj (hst.symm.trans hstream)
      exact ⟨by simp [Answer.ofPull], by simp [lookup_assign]⟩
  | pullEnd hstream =>
      obtain rfl := Option.some.inj (hst.symm.trans hstream)
      exact ⟨by simp [Answer.ofPull], hst⟩

/-- Once a sample was taken off a stream, each pull is one further on. -/
theorem ofPull_tail (scope : Scope) (samples : List Sample) (pulls : Nat) :
    Answer.ofPull scope samples.tail pulls = Answer.ofPull scope samples (pulls + 1) := by
  have hlength : samples.tail.length - (pulls + 1) = samples.length - (pulls + 1 + 1) := by
    rw [List.length_tail]
    omega
  rw [Answer.ofPull, Answer.ofPull, hlength, List.getElem?_tail]

/-- The pulls on a stream are answered in order, whatever is done between them. -/
theorem pullAnswers_run (st : Stream) (hst : s.streams.lookup name = some st)
    (actions : List Action) (hopens : ∀ a ∈ actions, ¬ a.Opens name) :
    pullAnswers name actions (s.run actions).2 =
      (List.range (actions.count (.next name))).map
        (.ofPull st.subscription.scope st.pending) := by
  induction actions generalizing s st with
  | nil => rfl
  | cons a actions ih =>
      have hrest : ∀ b ∈ actions, ¬ b.Opens name :=
        fun b hb => hopens b (List.mem_cons_of_mem a hb)
      have hmove := move_step s a
      rw [run, pullAnswers_cons]
      by_cases hpull : a = .next name
      · subst hpull
        obtain ⟨hanswer, hnext⟩ := hmove.pulled hst
        rw [if_pos rfl, ih _ hnext hrest, hanswer, List.count_cons_self, List.range_succ_eq_map,
          List.map_cons, List.map_map]
        congr 1
        apply List.map_congr_left
        intro pulls _
        exact ofPull_tail _ _ pulls
      · have hnext := hmove.undisturbed hst (hopens a List.mem_cons_self) hpull
        rw [if_neg hpull, ih _ hnext hrest, List.count_cons_of_ne hpull]

/-- Draining a stream gives the items that pulls would give. -/
theorem projectAll_snd (s : Session) (sub : Subscription) (samples : List Sample) :
    (s.projectAll sub samples).2 = samples.map sub.scope.item := by
  induction samples generalizing s with
  | nil => rfl
  | cons x samples ih =>
      rw [projectAll]
      simp only [ih, List.map_cons]
      rfl

/-- A projection is of the same trial and tick. -/
theorem trialId_tick_of_project {scope : Scope} {x y : Sample} (h : scope.project x = .ok y) :
    y.trialId = x.trialId ∧ y.tick = x.tick := by
  obtain ⟨_, rfl⟩ := Sample.project_eq_ok.mp h
  exact ⟨rfl, rfl⟩

theorem pulled?_ofPull {scope : Scope} {samples : List Sample} {pulls : Nat} {y : Sample} :
    (Answer.ofPull scope samples pulls).pulled? = some y ↔
      ∃ x, samples[pulls]? = some x ∧ scope.project x = .ok y := by
  unfold Answer.ofPull
  cases samples[pulls]? with
  | none => simp [Answer.pulled?]
  | some x => cases hx : scope.project x <;> simp [Answer.pulled?, Scope.item, hx, Except.mapError]

/-- What is pulled from a stream of samples with rising ticks rises, and is of their trial. -/
theorem pulled_of_samples (scope : Scope) {samples : List Sample} {trial : String}
    (hrising : samples.Pairwise fun a b => a.tick < b.tick)
    (htrial : ∀ x ∈ samples, x.trialId = trial) (pulls : Nat) :
    let yielded := ((List.range pulls).map (Answer.ofPull scope samples)).filterMap Answer.pulled?
    (∀ y ∈ yielded, y.trialId = trial) ∧ yielded.Pairwise fun a b => a.tick < b.tick := by
  intro yielded
  constructor
  · intro y hy
    obtain ⟨answer, hanswer, hpulled⟩ := List.mem_filterMap.mp hy
    obtain ⟨pull, _, rfl⟩ := List.mem_map.mp hanswer
    obtain ⟨x, hx, hproject⟩ := pulled?_ofPull.mp hpulled
    rw [(trialId_tick_of_project hproject).1]
    exact htrial x (List.mem_of_getElem? hx)
  · rw [List.pairwise_filterMap, List.pairwise_map]
    refine List.pairwise_lt_range.imp ?_
    intro i j hlt y hy z hz
    obtain ⟨x, hx, hprojectx⟩ := pulled?_ofPull.mp hy
    obtain ⟨w, hw, hprojectw⟩ := pulled?_ofPull.mp hz
    obtain ⟨hi, rfl⟩ := List.getElem?_eq_some_iff.mp hx
    obtain ⟨hj, rfl⟩ := List.getElem?_eq_some_iff.mp hw
    rw [(trialId_tick_of_project hprojectx).2, (trialId_tick_of_project hprojectw).2]
    exact List.pairwise_iff_getElem.mp hrising i j hi hj hlt

section

variable {source trial : String} {sub : Subscription} {samples : List Sample}

theorem step_openStream (hsource : s.subscriptions.lookup source = some sub)
    (hsamples : s.store.samples trial = .ok samples) (name : String) :
    s.step (.openStream source trial name) =
      ({ s with streams := assign name ⟨sub, samples⟩ s.streams }, .opened samples.length) := by
  simp only [step, withSubscription, hsource, stream, hsamples]
  rfl

theorem step_openStream_absent (hsource : s.subscriptions.lookup source = some sub)
    (htrial : trial ∉ s.store.ids) (name : String) :
    s.step (.openStream source trial name) = (s, .failure (.store (.unknownTrial trial))) := by
  have hsamples : s.store.samples trial = .error (.unknownTrial trial) :=
    Store.map_find_eq_error_iff.mpr ⟨Store.not_mem_ids.mp htrial, rfl⟩
  simp only [step, withSubscription, hsource, stream, hsamples]
  rfl

theorem step_drain (hsource : s.subscriptions.lookup source = some sub)
    (hsamples : s.store.samples trial = .ok samples) :
    (s.step (.drain source trial)).2 = .drained samples.length (samples.map sub.scope.item) := by
  simp only [step, withSubscription, hsource, stream, hsamples, ← projectAll_snd s sub samples]
  rfl

end

/-- Whatever led to a session, a stream opened in it from a subscription on a trial is a snapshot.
The subscription has the scope that was built, against the roster supplied then, when it or what it
is a clone of was made. As long as no other stream gets the name, the pulls among any later actions
are answered with the samples that the trial had, each projected through that scope or with the
error that this comes to, then with the end, and with how many are left. What is projected is of the
trial and its ticks rise. A stream that is drained at once yields the same items. On a trial that is
not there no stream is opened, and nothing changes. -/
theorem openStream_snapshot {past : List Action} {source : String} {sub : Subscription}
    (hsource : (reached past).subscriptions.lookup source = some sub) (trial name : String) :
    Family.Descends past source sub.scope ∧
    (∀ samples, (reached past).store.samples trial = .ok samples →
      ((reached past).step (.drain source trial)).2 =
        .drained samples.length (samples.map sub.scope.item) ∧
      ∃ opened, (reached past).step (.openStream source trial name) =
          (opened, .opened samples.length) ∧
        ∀ later : List Action, (∀ a ∈ later, ¬ a.Opens name) →
          let answers := pullAnswers name later (opened.run later).2
          let yielded := answers.filterMap Answer.pulled?
          answers =
            (List.range (later.count (.next name))).map (.ofPull sub.scope samples) ∧
          (∀ y ∈ yielded, y.trialId = trial) ∧
          yielded.Pairwise fun a b => a.tick < b.tick) ∧
    (trial ∉ (reached past).store.ids →
      (reached past).step (.openStream source trial name) =
        (reached past, .failure (.store (.unknownTrial trial)))) := by
  refine ⟨Family.descends_of_lookup hsource, ?_, ?_⟩
  · intro samples hsamples
    refine ⟨step_drain hsource hsamples, _, step_openStream hsource hsamples name, ?_⟩
    intro later hopens answers yielded
    have hanswers : answers =
        (List.range (later.count (.next name))).map (.ofPull sub.scope samples) := by
      refine pullAnswers_run ⟨sub, samples⟩ ?_ later hopens
      rw [lookup_assign, if_pos rfl]
    obtain ⟨hrising, htrial⟩ := samples_reached hsamples
    obtain ⟨hyieldedTrial, hyieldedRising⟩ :=
      pulled_of_samples sub.scope hrising htrial (later.count (.next name))
    rw [← hanswers] at hyieldedTrial hyieldedRising
    exact ⟨hanswers, hyieldedTrial, hyieldedRising⟩
  · intro htrial
    exact step_openStream_absent hsource htrial name

/-- A trial of two actors with a sample and one that refers to a payload it has not got, and a
subscription to the second actor. -/
def watched : List Action :=
  [ .create "game" ⟨[], 0, 0, none, [⟨"alice", "", "", "", []⟩, ⟨"bob", "", "", "", []⟩]⟩,
    .subscribe "viewer" ⟨["bob"], [], [], []⟩ .exact (.trial "game"),
    .add { Sample.blank with
      trialId := "game", tick := 3, steps := [Step.blank, { Step.blank with actor := 1 }] },
    .add { Sample.blank with
      trialId := "game", tick := 9, steps := [{ Step.blank with action := some 0 }] } ]

/-- The trial is made anew with one actor and the tally is reset between the pulls. -/
theorem watched_snapshot :
    let bob : Subscription := ⟨⟨.restricted ⟨[false, true]⟩, .unrestricted⟩, 0⟩
    let later : List Action :=
      [ .delete "game", .next "s", .create "game" Params.blank, .add { Sample.blank with
          trialId := "game" }, .reset "viewer", .next "s", .next "s" ]
    (reached watched).subscriptions.lookup "viewer" = some bob ∧
    (∀ a ∈ later, ¬ a.Opens "s") ∧
    ∃ opened, (reached watched).step (.openStream "viewer" "game" "s") = (opened, .opened 2) ∧
      pullAnswers "s" later (opened.run later).2 =
        [ .pulled (some (.ok { Sample.blank with
            trialId := "game", tick := 3, steps := [{ Step.blank with actor := 1 }] })) 1,
          .pulled (some (.error (.projection (.payloadOutOfRange 0 0 0)))) 0,
          .pulled none 0 ] ∧
      (reached watched).step (.openStream "viewer" "chess" "s") =
        (reached watched, .failure (.store (.unknownTrial "chess"))) := by
  intro bob later
  have hsource : (reached watched).subscriptions.lookup "viewer" = some bob := by decide
  have hopens : ∀ a ∈ later, ¬ a.Opens "s" := by simp [later, Action.Opens]
  obtain ⟨_, hsnapshot, _⟩ := openStream_snapshot hsource "game" "s"
  obtain ⟨_, opened, hstep, hpulls⟩ := hsnapshot _ rfl
  obtain ⟨hanswers, _⟩ := hpulls later hopens
  obtain ⟨_, _, habsent⟩ := openStream_snapshot hsource "chess" "s"
  exact ⟨hsource, hopens, opened, hstep, hanswers, habsent (by decide)⟩

end Session

end TrialView
