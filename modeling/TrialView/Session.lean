import TrialView.Scope
import TrialView.Tally

/-!
Subscribers at work on one store. A session holds the store, subscriptions and open streams under
names, and the tallies. A subscription refers to a tally by number; its clones refer to the same
one, and so do the streams opened from any of them. A stream holds the samples that its trial had
when it was opened and the subscription as it was then, so nothing that happens later to either of
them changes what it yields.
-/

namespace TrialView

/-- A scope, and the number of the tally that its projections are counted in. -/
structure Subscription where
  scope : Scope
  tally : Nat
deriving Repr, DecidableEq

structure Stream where
  subscription : Subscription
  pending : List Sample
deriving Repr, DecidableEq

/-- What a subscription is made for. Where there are filters already the request has no part in it. -/
inductive Audience where
  | trial (id : String)
  | roster (actors : List Actor)
  | filters (actors : ActorFilter) (fields : FieldFilter)
deriving Repr, DecidableEq

/-- Filters that restrict nothing. -/
def Audience.everyone : Audience := .filters .unrestricted .unrestricted

structure Session where
  store : Store
  tallies : List Tally
  subscriptions : List (String × Subscription)
  streams : List (String × Stream)
deriving DecidableEq

inductive Action where
  | create (trial : String) (params : Params)
  | add (sample : Sample)
  | delete (trial : String)
  | ids
  | params (trial : String)
  | roster (trial : String)
  | samples (trial : String)
  | subscribe (name : String) (request : Request) (mode : MatchMode) (audience : Audience)
  | clone (subscription : String) (name : String)
  | project (subscription : String) (sample : Sample)
  /-- Opens a stream and pulls it to its end. -/
  | drain (subscription : String) (trial : String)
  | openStream (subscription : String) (trial : String) (name : String)
  | next (stream : String)
  | tally (subscription : String)
  | reset (subscription : String)
deriving Repr, DecidableEq

/-- What a stream yields: a projected sample, or the reason why there is none for this tick. -/
abbrev Item := Except Error Sample

inductive Answer where
  | done
  | ids (ids : List String)
  | params (params : Params)
  | roster (actors : List Actor)
  | samples (samples : List Sample)
  | scope (scope : Scope)
  | sample (sample : Sample)
  | drained (size : Nat) (items : List Item)
  | opened (remaining : Nat)
  /-- The next item of a stream, if it is not at its end, and how many are left after it. -/
  | pulled (item : Option Item) (remaining : Nat)
  | tally (tally : Tally)
  /-- A failure of the store, a filter or a projection by itself. -/
  | storeFailure (e : StoreError)
  | filterFailure (e : UnknownField)
  | projectionFailure (e : ProjectionError)
  /-- A failure of work that several of them take part in. -/
  | failure (e : Error)
  /-- A name that stands for no subscription or stream. -/
  | unknownName (name : String)

/-- The entries of a list of pairs with the value of one key set. -/
def assign {α : Type} (name : String) (a : α) (entries : List (String × α)) : List (String × α) :=
  (name, a) :: entries.filter (·.1 ≠ name)

namespace Session

def empty : Session := ⟨.empty, [], [], []⟩

def tallyAt (s : Session) (tally : Nat) : Tally := s.tallies.getD tally .zero

def updateTally (s : Session) (tally : Nat) (f : Tally → Tally) : Session :=
  { s with tallies := s.tallies.modify tally f }

/-- Projects a sample for a subscription and counts it. No clock runs in a session. -/
def project (s : Session) (sub : Subscription) (sample : Sample) :
    Session × Except ProjectionError Sample :=
  let outcome := sub.scope.projectWithReport sample
  (s.updateTally sub.tally (·.count outcome .zero), Prod.fst <$> outcome)

/-- Projects samples one after the other. -/
def projectAll (s : Session) (sub : Subscription) : List Sample → Session × List Item
  | [] => (s, [])
  | sample :: rest =>
      let (s, outcome) := s.project sub sample
      let (s, items) := s.projectAll sub rest
      (s, outcome.mapError .projection :: items)

/-- Keeps a new subscription, with a tally of its own. -/
def subscribe (s : Session) (name : String) (scope : Scope) : Session :=
  let sub : Subscription := ⟨scope, s.tallies.length⟩
  { s with
    tallies := s.tallies ++ [.zero]
    subscriptions := assign name sub s.subscriptions }

/-- The stream of a subscription on a trial, with the samples that it has now. -/
def stream (s : Session) (sub : Subscription) (trial : String) : Except Error Stream := do
  let samples ← (s.store.samples trial).mapError .store
  pure ⟨sub, samples⟩

/-- Takes the next sample of a stream, which stays at its end once it is there. -/
def pull (s : Session) (name : String) (stream : Stream) : Session × Answer :=
  match stream.pending with
  | [] => (s, .pulled none 0)
  | sample :: rest =>
      let (s, outcome) := s.project stream.subscription sample
      ({ s with streams := assign name { stream with pending := rest } s.streams },
        .pulled (some (outcome.mapError .projection)) rest.length)

def updateStore (s : Session) : Except StoreError Store → Session × Answer
  | .ok store => ({ s with store := store }, .done)
  | .error e => (s, .storeFailure e)

def ask {α : Type} (s : Session) (answer : α → Answer) : Except StoreError α → Session × Answer
  | .ok a => (s, answer a)
  | .error e => (s, .storeFailure e)

/-- Does something with the subscription of a name. -/
def withSubscription (s : Session) (name : String)
    (act : Subscription → Session × Answer) : Session × Answer :=
  match s.subscriptions.lookup name with
  | some sub => act sub
  | none => (s, .unknownName name)

def step (s : Session) : Action → Session × Answer
  | .create trial params => s.updateStore (s.store.create trial params)
  | .add sample => s.updateStore (s.store.add sample)
  | .delete trial => s.updateStore (s.store.delete trial)
  | .ids => (s, .ids s.store.ids)
  | .params trial => s.ask .params (s.store.params trial)
  | .roster trial => s.ask .roster (s.store.roster trial)
  | .samples trial => s.ask .samples (s.store.samples trial)
  | .subscribe name request mode audience =>
      match audience with
      | .trial id =>
          match Scope.ofTrial request s.store id mode with
          | .ok scope => (s.subscribe name scope, .scope scope)
          | .error e => (s, .failure e)
      | .roster actors =>
          match Scope.ofRequest request actors mode with
          | .ok scope => (s.subscribe name scope, .scope scope)
          | .error e => (s, .filterFailure e)
      | .filters actors fields => (s.subscribe name ⟨actors, fields⟩, .scope ⟨actors, fields⟩)
  | .clone subscription name =>
      s.withSubscription subscription fun sub =>
        ({ s with subscriptions := assign name sub s.subscriptions }, .done)
  | .project subscription sample =>
      s.withSubscription subscription fun sub =>
        match s.project sub sample with
        | (s, .ok sample) => (s, .sample sample)
        | (s, .error e) => (s, .projectionFailure e)
  | .drain subscription trial =>
      s.withSubscription subscription fun sub =>
        match s.stream sub trial with
        | .ok stream =>
            let (s, items) := s.projectAll sub stream.pending
            (s, .drained stream.pending.length items)
        | .error e => (s, .failure e)
  | .openStream subscription trial name =>
      s.withSubscription subscription fun sub =>
        match s.stream sub trial with
        | .ok stream =>
            ({ s with streams := assign name stream s.streams }, .opened stream.pending.length)
        | .error e => (s, .failure e)
  | .next name =>
      match s.streams.lookup name with
      | some stream => s.pull name stream
      | none => (s, .unknownName name)
  | .tally subscription =>
      s.withSubscription subscription fun sub => (s, .tally (s.tallyAt sub.tally))
  | .reset subscription =>
      s.withSubscription subscription fun sub =>
        (s.updateTally sub.tally fun _ => .zero, .done)

/-- Does actions in order and gives their answers. -/
def run (s : Session) : List Action → Session × List Answer
  | [] => (s, [])
  | a :: rest =>
      let (s, answer) := s.step a
      let (s, answers) := s.run rest
      (s, answer :: answers)

end Session

end TrialView
