import TrialView.Proofs.Command.Lines
import TrialView.Proofs.Filter.Identifier
import TrialView.Proofs.Projection.View
import TrialView.Proofs.Store.Log

/-!
The stages of a projection behind the reading of files. The samples of one trial are loaded exactly
if their ticks rise, the filters are made exactly if every identifier names a field, and the samples
are printed one after the other up to the first that cannot be projected. What is said of a stage
holds whatever came before it.
-/

namespace TrialView

/-- The tick of each sample exceeds those of all samples before it. -/
def Rising (samples : List Sample) : Prop := samples.Pairwise fun a b => a.tick < b.tick

/-- In a trial whose ticks rise, they go on to rise exactly with a sample that it admits. -/
theorem rising_append_singleton_iff {t : Trial} {x : Sample} (h : Rising t.samples) :
    Rising (t.samples ++ [x]) ↔ t.Admits x.tick := by
  constructor
  · intro hrising last hlast
    exact (List.pairwise_append.mp hrising).2.2 last (List.mem_of_getLast? hlast) x
      (List.mem_singleton_self x)
  · intro hadmits
    refine List.pairwise_append.mpr ⟨h, List.pairwise_singleton _ x, ?_⟩
    intro y hy z hz
    obtain rfl := List.mem_singleton.mp hz
    cases hlast : t.samples.getLast? with
    | none => simp [List.getLast?_eq_none_iff.mp hlast] at hy
    | some last =>
        have hle : y.tick ≤ last.tick := Store.tick_le_getLast? h hlast hy
        exact UInt64.lt_of_le_of_lt hle (hadmits last hlast)

namespace Command

theorem mapError_eq_ok_iff {ε ε' α : Type} {f : ε → ε'} {r : Except ε α} {a : α} :
    r.mapError f = .ok a ↔ r = .ok a := by
  cases r <;> simp [Except.mapError]

/-! Loading. -/

/-- The samples of one trial among others, in their order. -/
def samplesOf (trial : String) (samples : List Sample) : List Sample :=
  samples.filter fun s => s.trialId = trial

section

variable {trial : String} {params : Params} {store : Store} {before samples : List Sample}

/-- By induction on the samples to load, with those in the store as what came `before`. -/
theorem loadSamples_outcome (hget : store.get? trial = some ⟨params, before⟩)
    (hbefore : Rising before) :
    (Rising (before ++ samplesOf trial samples) ∧
      ∃ next, loadSamples trial store samples = .ok next ∧
        next.get? trial = some ⟨params, before ++ samplesOf trial samples⟩) ∨
    (¬ Rising (before ++ samplesOf trial samples) ∧
      ∃ failure, loadSamples trial store samples = .error failure) := by
  induction samples generalizing store before with
  | nil =>
      have hnone : before ++ samplesOf trial [] = before := List.append_nil before
      rw [hnone]
      exact .inl ⟨hbefore, store, rfl, hget⟩
  | cons s samples ih =>
      rw [loadSamples]
      by_cases htrial : s.trialId = trial
      · have hchosen : before ++ samplesOf trial (s :: samples) =
            (before ++ [s]) ++ samplesOf trial samples := by
          simp [samplesOf, htrial]
        rw [if_pos htrial, hchosen]
        have hrising := @rising_append_singleton_iff ⟨params, before⟩ s hbefore
        by_cases hadmits : Trial.Admits ⟨params, before⟩ s.tick
        · rw [Store.add_admitted (htrial ▸ hget) hadmits]
          refine ih ?_ (hrising.mpr hadmits)
          simp [htrial]
        · obtain ⟨last, hlast, hlate⟩ := Trial.not_admits_iff.mp hadmits
          refine .inr ⟨fun hall => hadmits (hrising.mp ?_), ?_⟩
          · exact (List.pairwise_append.mp hall).1
          · rw [Store.add_late (htrial ▸ hget) hlast hlate]
            exact ⟨_, rfl⟩
      · have hchosen : samplesOf trial (s :: samples) = samplesOf trial samples := by
          simp [samplesOf, htrial]
        rw [if_neg htrial, hchosen]
        exact ih hget hbefore

/-- A trial is loaded exactly if the ticks of its samples rise; others may do what they want. -/
theorem loadTrial_outcome (trial : String) (params : Params) (samples : List Sample) :
    (Rising (samplesOf trial samples) ∧
      ∃ store, loadTrial trial params samples = .ok store ∧
        store.get? trial = some ⟨params, samplesOf trial samples⟩) ∨
    (¬ Rising (samplesOf trial samples) ∧
      ∃ failure, loadTrial trial params samples = .error failure) := by
  have hcreate : Store.empty.create trial params = .ok (Store.empty.put trial ⟨params, []⟩) :=
    Store.create_absent (Store.get?_empty trial)
  rw [loadTrial, hcreate]
  have hget : (Store.empty.put trial ⟨params, []⟩).get? trial = some ⟨params, []⟩ := by simp
  exact loadSamples_outcome hget List.Pairwise.nil

end

/-! Filters. -/

namespace ProjectOptions

/-- The identifiers of the fields to keep. -/
def identifiers (o : ProjectOptions) (config : Config) : List String :=
  if o.fields = [] then config.defaultFields else o.fields

/-- Every identifier names a field. -/
def Known (o : ProjectOptions) (config : Config) : Prop :=
  ∀ id ∈ o.identifiers config, ∃ field, Field.parse? id = some field

/-- The filters that options come to under a configuration and for the roster of parameters. -/
def scope (o : ProjectOptions) (config : Config) (params : Params) : Scope where
  actors := .ofPatterns o.actorNames o.actorClasses o.actorImplementations params.actors
    (if o.glob then .glob else config.matching)
  fields := .ofFields ((o.identifiers config).filterMap Field.parse?)

end ProjectOptions

section

variable {o : ProjectOptions} {config : Config} {params : Params} {store : Store} {trial : String}
  {samples : List Sample}

/-- The filters of options are made from identifiers and the roster of the trial. -/
theorem ofTrial_eq (hget : store.get? trial = some ⟨params, samples⟩) :
    Scope.ofTrial (o.request config) store trial (o.mode config) =
      match FieldFilter.parse (o.identifiers config) with
      | .ok fields => .ok ⟨(o.scope config params).actors, fields⟩
      | .error e => .error (.filter e) := by
  have hroster : store.roster trial = .ok params.roster :=
    Store.map_find_eq_ok_iff.mpr ⟨_, hget, rfl⟩
  have hfields : (o.request config).fields = o.identifiers config := by
    simp [ProjectOptions.request, ProjectOptions.identifiers]
  rw [Scope.ofTrial, hroster]
  change (Scope.ofRequest (o.request config) params.roster (o.mode config)).mapError
    Error.filter = _
  rw [Scope.ofRequest, hfields]
  cases FieldFilter.parse (o.identifiers config) <;> rfl

theorem ofTrial_eq_ok_iff {scope : Scope} (hget : store.get? trial = some ⟨params, samples⟩) :
    Scope.ofTrial (o.request config) store trial (o.mode config) = .ok scope ↔
      o.Known config ∧ o.scope config params = scope := by
  rw [ofTrial_eq hget]
  cases hparse : FieldFilter.parse (o.identifiers config) with
  | error e =>
      refine iff_of_false (by simp) ?_
      rintro ⟨hknown, -⟩
      have hok := FieldFilter.parse_eq_ok_iff.mpr ⟨hknown, rfl⟩
      rw [hparse] at hok
      cases hok
  | ok filter =>
      obtain ⟨hknown, rfl⟩ := FieldFilter.parse_eq_ok_iff.mp hparse
      constructor
      · intro h
        exact ⟨hknown, Except.ok.inj h⟩
      · rintro ⟨-, rfl⟩
        rfl

end

/-! Printing. -/

/-- The texts of samples one after the other, each with a line feed behind it. -/
def sheet (style : Json.Style) (samples : List Sample) : List Char :=
  samples.flatMap fun s => s.render style ++ ['\n']

/-- Each sample is projected, in the same order. -/
abbrev Projected (scope : Scope) : List Sample → List Sample → Prop :=
  List.Forall₂ fun s t => scope.project s = .ok t

section

variable {scope : Scope} (style : Json.Style) {done projected samples : List Sample} {s t : Sample}

theorem project_eq_map_fst (scope : Scope) (s : Sample) :
    scope.project s = Prod.fst <$> scope.projectWithReport s := rfl

theorem printSamples_cons_ok (h : scope.project s = .ok t) (rest : List Sample) (tally : Tally) :
    ∃ tally', printSamples scope style (s :: rest) tally =
      (t.render style ++ '\n' :: (printSamples scope style rest tally').1,
        (printSamples scope style rest tally').2) := by
  rw [project_eq_map_fst] at h
  cases houtcome : scope.projectWithReport s with
  | error e => simp [houtcome] at h
  | ok pair =>
      obtain ⟨found, report⟩ := pair
      obtain rfl : found = t := by simpa [houtcome] using h
      rw [printSamples, houtcome]
      exact ⟨_, rfl⟩

theorem printSamples_cons_error {e : ProjectionError} (h : scope.project s = .error e)
    (rest : List Sample) (tally : Tally) :
    ∃ tally', printSamples scope style (s :: rest) tally =
      ([], some ⟨"Failed to project sample", (Error.projection e).causes⟩, tally') := by
  rw [project_eq_map_fst] at h
  cases houtcome : scope.projectWithReport s with
  | ok pair => simp [houtcome] at h
  | error e' =>
      obtain rfl : e' = e := by simpa [houtcome] using h
      rw [printSamples, houtcome]
      exact ⟨_, rfl⟩

/-- Samples that are projected are printed before whatever is printed of the rest. -/
theorem printSamples_append (h : Projected scope done projected) (rest : List Sample)
    (tally : Tally) :
    ∃ tally', printSamples scope style (done ++ rest) tally =
      (sheet style projected ++ (printSamples scope style rest tally').1,
        (printSamples scope style rest tally').2) := by
  induction h generalizing tally with
  | nil => exact ⟨tally, rfl⟩
  | @cons s t done projected hs _ ih =>
      obtain ⟨between, hfirst⟩ := printSamples_cons_ok style hs (done ++ rest) tally
      obtain ⟨tally', hrest⟩ := ih between
      refine ⟨tally', ?_⟩
      rw [List.cons_append, hfirst, hrest]
      simp [sheet]

/-- Samples can be projected in a row if each of them can by itself. -/
theorem exists_projected_iff :
    (∃ projected, Projected scope samples projected) ↔
      ∀ s ∈ samples, ∃ t, scope.project s = .ok t := by
  induction samples with
  | nil => simp
  | cons s samples ih =>
      rw [List.forall_mem_cons, ← ih]
      constructor
      · rintro ⟨_, hs | ⟨hs, hrest⟩⟩
        exact ⟨⟨_, hs⟩, _, hrest⟩
      · rintro ⟨⟨t, hs⟩, projected, hrest⟩
        exact ⟨t :: projected, .cons hs hrest⟩

theorem Projected.unique (h : Projected scope samples done)
    (h' : Projected scope samples projected) : done = projected := by
  refine List.right_unique_forall₂' ?_ h h'
  intro s t t' ht ht'
  exact Except.ok.inj (ht.symm.trans ht')

/-- All samples are projected, or they come to a first one that is not. -/
theorem projected_or_error (scope : Scope) (samples : List Sample) :
    (∃ projected, Projected scope samples projected) ∨
      ∃ done s rest projected e, samples = done ++ s :: rest ∧ Projected scope done projected ∧
        scope.project s = .error e := by
  induction samples with
  | nil => exact .inl ⟨[], .nil⟩
  | cons s samples ih =>
      cases hs : scope.project s with
      | error e => exact .inr ⟨[], s, samples, [], e, rfl, .nil, hs⟩
      | ok t =>
          rcases ih with ⟨projected, hall⟩ | ⟨done, bad, rest, projected, e, rfl, hdone, hbad⟩
          · exact .inl ⟨t :: projected, .cons hs hall⟩
          · exact .inr ⟨s :: done, bad, rest, t :: projected, e, rfl, .cons hs hdone, hbad⟩

theorem printSamples_eq_none_iff {text : List Char} {tally : Tally} :
    (printSamples scope style samples tally).2.1 = none ∧
        (printSamples scope style samples tally).1 = text ↔
      ∃ projected, Projected scope samples projected ∧ sheet style projected = text := by
  have hprinted {projected : List Sample} (h : Projected scope samples projected) :
      (printSamples scope style samples tally).2.1 = none ∧
        (printSamples scope style samples tally).1 = sheet style projected := by
    obtain ⟨tally', hprint⟩ := printSamples_append style h [] tally
    rw [List.append_nil] at hprint
    simp [hprint, printSamples]
  constructor
  · rintro ⟨hnone, rfl⟩
    rcases projected_or_error scope samples with
      ⟨projected, hall⟩ | ⟨done, bad, rest, projected, e, rfl, hdone, hbad⟩
    · exact ⟨projected, hall, (hprinted hall).2.symm⟩
    · obtain ⟨between, hfirst⟩ := printSamples_append style hdone (bad :: rest) tally
      obtain ⟨tally', hfail⟩ := printSamples_cons_error style hbad rest between
      simp [hfirst, hfail] at hnone
  · rintro ⟨projected, hall, rfl⟩
    exact hprinted hall

end

end Command

end TrialView
