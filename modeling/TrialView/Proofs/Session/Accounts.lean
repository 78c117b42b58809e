import TrialView.Proofs.Session.Family
import TrialView.Proofs.Projection.Shown
import Mathlib.Algebra.Ring.Nat

/-!
What a tally accounts for. The counters of a family's tally are sums over the samples that were
projected through it since its last reset: how many could be projected and how many could not, and
how much of each sample its projection lacks, in steps, payloads and bytes. The sums are those of
the samples and their projections themselves, taken modulo the size of a word. Nothing that is done
outside of the family has a part in them.
-/

namespace TrialView

open Projection

/-- The samples that can be projected, each with its projection. -/
def Scope.projections (scope : Scope) (samples : List Sample) : List (Sample × Sample) :=
  samples.filterMap fun x => (scope.project x).toOption.map (x, ·)

/-- How many samples cannot be projected. -/
def Scope.failures (scope : Scope) (samples : List Sample) : Nat :=
  samples.countP fun x => (scope.project x).toOption.isNone

/-- How many payloads are not empty in one sample and empty in another. -/
def Sample.emptied (before after : Sample) : Nat :=
  (before.payloads.zip after.payloads).countP fun p => !p.1.isEmpty && p.2.isEmpty

/-- The sum over samples and their projections of what the second lacks of the first. -/
def totalLoss (loss : Sample → Sample → Nat) (pairs : List (Sample × Sample)) : Nat :=
  (pairs.map fun p => loss p.1 p.2).sum

/-- A tally holds the totals over samples, modulo the size of a word. -/
structure Tally.Accounts (t : Tally) (scope : Scope) (xs : List Sample) : Prop where
  samples : t.samples.toNat = (scope.projections xs).length % 2 ^ 64
  failures : t.failures.toNat = scope.failures xs % 2 ^ 64
  stepsDropped : t.stepsDropped.toNat =
    totalLoss (fun x y => x.steps.length - y.steps.length) (scope.projections xs) % 2 ^ 64
  payloadsTruncated : t.payloadsTruncated.toNat =
    totalLoss Sample.emptied (scope.projections xs) % 2 ^ 64
  bytesReleased : t.bytesReleased.toNat =
    totalLoss (fun x y => x.payloadBytes - y.payloadBytes) (scope.projections xs) % 2 ^ 64
  /-- No difference is cut off at zero. -/
  smaller : ∀ p ∈ scope.projections xs,
    p.2.steps.length ≤ p.1.steps.length ∧ p.2.payloadBytes ≤ p.1.payloadBytes

namespace Sample

variable {s : Sample} {actors : ActorFilter} {fields : FieldFilter}

/-- The payloads that a view lacks are those that it emptied. -/
theorem emptied_view : s.emptied (s.view actors fields) =
    occupied s.payloads - occupied (s.view actors fields).payloads := by
  have hzip : s.payloads.zip (s.view actors fields).payloads =
      (slotsOf (s.keepsPlace actors fields) s.payloads).map
        fun slot => (slot.1, if slot.2 then slot.1 else []) := by
    rw [← List.zip_map', slotsOf_fst]
    rfl
  calc
    s.emptied (s.view actors fields)
      = countTruncated (slotsOf (s.keepsPlace actors fields) s.payloads) := by
        rw [emptied, hzip, List.countP_map, countTruncated]
        congr 1
        funext slot
        obtain ⟨p, keep⟩ := slot
        cases keep <;> simp
    _ = occupied s.payloads - occupied (s.view actors fields).payloads := countTruncated_eq _ _

end Sample

namespace Scope

variable {scope : Scope} {xs : List Sample} {x y : Sample}

theorem toOption_project : (scope.project x).toOption = some y ↔ scope.project x = .ok y := by
  cases scope.project x <;> simp [Except.toOption]

theorem mem_projections {p : Sample × Sample} :
    p ∈ scope.projections xs ↔ p.1 ∈ xs ∧ scope.project p.1 = .ok p.2 := by
  obtain ⟨x, y⟩ := p
  simp only [projections, List.mem_filterMap, Option.map_eq_some_iff, Prod.mk.injEq,
    toOption_project]
  constructor
  · rintro ⟨_, hx, _, hproject, rfl, rfl⟩
    exact ⟨hx, hproject⟩
  · rintro ⟨hx, hproject⟩
    exact ⟨x, hx, y, hproject, rfl, rfl⟩

theorem projections_append_ok (h : scope.project x = .ok y) :
    scope.projections (xs ++ [x]) = scope.projections xs ++ [(x, y)] := by
  simp [projections, h, Except.toOption]

theorem projections_append_error {e : ProjectionError} (h : scope.project x = .error e) :
    scope.projections (xs ++ [x]) = scope.projections xs := by
  simp [projections, h, Except.toOption]

theorem failures_append_ok (h : scope.project x = .ok y) :
    scope.failures (xs ++ [x]) = scope.failures xs := by
  simp [failures, h, Except.toOption]

theorem failures_append_error {e : ProjectionError} (h : scope.project x = .error e) :
    scope.failures (xs ++ [x]) = scope.failures xs + 1 := by
  simp [failures, h, Except.toOption]

/-- What is counted for a sample can be read off the sample and its projection. -/
theorem count_projectWithReport (t : Tally) :
    t.count (scope.projectWithReport x) .zero =
      match scope.project x with
      | .error _ => t.recordFailure
      | .ok y => t.record
          { stepsKept := y.steps.length
            stepsDropped := x.steps.length - y.steps.length
            payloadsLive := occupied y.payloads
            payloadsTruncated := x.emptied y
            bytesReleased := x.payloadBytes - y.payloadBytes } .zero := by
  rw [projectWithReport, Sample.projectWithReport_eq, project, Sample.project_eq]
  cases x.fault? scope.actors with
  | some e => rfl
  | none => simp only [Tally.count, Report.between, Sample.emptied_view]

end Scope

theorem totalLoss_append_singleton (loss : Sample → Sample → Nat) (pairs : List (Sample × Sample))
    (x y : Sample) : totalLoss loss (pairs ++ [(x, y)]) = totalLoss loss pairs + loss x y := by
  simp [totalLoss]

namespace Tally

/-- The totals over samples, each in a word. -/
def ofSamples (scope : Scope) (xs : List Sample) : Tally :=
  let pairs := scope.projections xs
  { samples := UInt64.ofNat pairs.length
    failures := UInt64.ofNat (scope.failures xs)
    stepsDropped := UInt64.ofNat (totalLoss (fun x y => x.steps.length - y.steps.length) pairs)
    payloadsTruncated := UInt64.ofNat (totalLoss Sample.emptied pairs)
    bytesReleased := UInt64.ofNat (totalLoss (fun x y => x.payloadBytes - y.payloadBytes) pairs)
    totalTime := 0 }

/-- One more sample changes the totals as it is counted. -/
theorem ofSamples_append_singleton (scope : Scope) (xs : List Sample) (x : Sample) :
    ofSamples scope (xs ++ [x]) =
      (ofSamples scope xs).count (scope.projectWithReport x) .zero := by
  rw [Scope.count_projectWithReport]
  cases hproject : scope.project x with
  | error e =>
      simp [ofSamples, recordFailure, Scope.projections_append_error hproject,
        Scope.failures_append_error hproject]
  | ok y =>
      simp [ofSamples, record, Scope.projections_append_ok hproject,
        Scope.failures_append_ok hproject, totalLoss_append_singleton, Duration.toNanoseconds,
        Duration.zero]

/-- Counting the projections of samples comes to their totals. -/
theorem countAll_zero (scope : Scope) (xs : List Sample) :
    zero.countAll scope xs = ofSamples scope xs := by
  induction xs using List.reverseRecOn with
  | nil => rfl
  | append_singleton xs x ih =>
      rw [ofSamples_append_singleton, ← ih, countAll, countAll, List.foldl_append]
      rfl

theorem accounts_ofSamples (scope : Scope) (xs : List Sample) :
    (ofSamples scope xs).Accounts scope xs where
  samples := UInt64.toNat_ofNat'
  failures := UInt64.toNat_ofNat'
  stepsDropped := UInt64.toNat_ofNat'
  payloadsTruncated := UInt64.toNat_ofNat'
  bytesReleased := UInt64.toNat_ofNat'
  smaller := by
    intro p hp
    obtain ⟨_, hview⟩ := Sample.project_eq_ok.mp (Scope.mem_projections.mp hp).2
    rw [← hview]
    exact ⟨Sample.steps_length_view_le, Sample.payloadBytes_view_le⟩

end Tally

namespace Session

theorem step_tally {s : Session} {name : String} {sub : Subscription}
    (h : s.subscriptions.lookup name = some sub) :
    s.step (.tally name) = (s, .tally (s.tallyAt sub.tally)) := by
  simp only [step, withSubscription, h]

/-- Every member of a family shows the totals over the samples that were projected through it. -/
theorem step_tally_of_shares {s : Session} {f : Family} {kin : Subscription} {name : String}
    (h : f.Shares kin s) (hname : name ∈ f.members) :
    s.step (.tally name) = (s, .tally (.ofSamples kin.scope f.projected)) := by
  obtain ⟨_, hlookup, rfl⟩ := (h.members name).mp hname
  rw [step_tally hlookup, tallyAt, List.getD_eq_getElem?_getD, h.counted, Tally.countAll_zero]
  rfl

/-- Whatever is done before and after a subscription is made, each member of its family is shown one
tally, which accounts for the samples that were projected through the family since its last reset.
An action that projects no sample through the family and does not reset it leaves what is shown as
it is. -/
theorem tally_accounts {before : List Action} {request : Request} {mode : MatchMode}
    {audience : Audience} {scope : Scope}
    (hgives : audience.Gives (reached before).store request mode scope) (name : String)
    (since : List Action) :
    let made := reached (before ++ [.subscribe name request mode audience])
    let s := (made.run since).1
    let f := (Family.founded name).run made since
    ∃ t : Tally, t.Accounts scope f.projected ∧
      (∀ member ∈ f.members, s.step (.tally member) = (s, .tally t)) ∧
      ∀ a : Action, f.projects s a = [] → f.resets a = false →
        let next := (s.step a).1
        ∀ member ∈ (f.after s a (s.step a).2).members,
          next.step (.tally member) = (next, .tally t) := by
  intro made s f
  have hshares : f.Shares ⟨scope, (reached before).tallies.length⟩ s := by
    have hreached : reached (before ++ .subscribe name request mode audience :: since) = s := by
      rw [List.append_cons, reached_append]
    rw [← hreached]
    exact Family.shares_run_founded hgives
  refine ⟨.ofSamples scope f.projected, Tally.accounts_ofSamples scope f.projected, ?_, ?_⟩
  · intro member hmember
    have hshown := step_tally_of_shares hshares hmember
    exact hshown
  · intro a hprojects hresets next member hmember
    have hsame : (f.after s a (s.step a).2).projected = f.projected := by
      simp [Family.after, hprojects, hresets]
    have hshown := step_tally_of_shares (hshares.after (move_step s a)) hmember
    rw [hsame] at hshown
    exact hshown

/-- The tally of a subscription to the second of two actors and its copy, after it was reset between
projections. A stranger with filters of its own, which show no field at all, projects the same
sample without a part in it. -/
theorem tally_of_copy :
    let before : List Action :=
      [ .create "game"
          ⟨[], 0, 0, none, [⟨"alice", "", "", "", []⟩, ⟨"bob", "", "", "", []⟩]⟩ ]
    let subscribe : Action :=
      .subscribe "viewer" ⟨["bob"], [], [], []⟩ .exact (.trial "game")
    let stranger : Action :=
      .subscribe "stranger" .blank .exact (.filters .unrestricted (.restricted (.ofList [])))
    let bob : Scope := ⟨.restricted ⟨[false, true]⟩, .unrestricted⟩
    let dangling : Sample :=
      { Sample.blank with steps := [{ Step.blank with action := some 0 }] }
    let since : List Action :=
      [ stranger, .clone "viewer" "copy", .project "copy" dangling, .reset "viewer",
        .project "viewer" Sample.shared, .project "copy" dangling,
        .openStream "copy" "game" "s", .next "s" ]
    let s := ((reached (before ++ [subscribe])).run since).1
    let next := (s.step (.project "stranger" Sample.shared)).1
    (Audience.trial "game").Gives (reached before).store ⟨["bob"], [], [], []⟩ .exact bob ∧
    ∃ t : Tally, t.Accounts bob [Sample.shared, dangling] ∧
      t = ⟨1, 1, 1, 2, 2, 0⟩ ∧
      s.step (.tally "copy") = (s, .tally t) ∧
      next.step (.tally "viewer") = (next, .tally t) := by
  intro before subscribe stranger bob dangling since s next
  have hgives :
      (Audience.trial "game").Gives (reached before).store ⟨["bob"], [], [], []⟩ .exact bob :=
    ⟨_, rfl, rfl⟩
  obtain ⟨t, haccounts, hshown, hkept⟩ := tally_accounts hgives "viewer" since
  let f := (Family.founded "viewer").run (reached (before ++ [subscribe])) since
  have hmembers : f.members = ["copy", "viewer"] := by decide +kernel
  have hprojected : f.projected = [Sample.shared, dangling] := by decide +kernel
  have haccounts : t.Accounts bob f.projected := haccounts
  rw [hprojected] at haccounts
  have hcopy : s.step (.tally "copy") = (s, .tally t) :=
    hshown "copy" (show "copy" ∈ f.members by simp [hmembers])
  have hvalue : (s.step (.tally "copy")).2 = .tally ⟨1, 1, 1, 2, 2, 0⟩ := rfl
  rw [hcopy] at hvalue
  have hstranger : next.step (.tally "viewer") = (next, .tally t) :=
    hkept (.project "stranger" Sample.shared) (by decide +kernel) (by decide +kernel) "viewer"
      (by decide +kernel)
  exact ⟨hgives, t, haccounts, Answer.tally.inj hvalue, hcopy, hstranger⟩

end Session

end TrialView
