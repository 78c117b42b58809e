import TrialView.Proofs.Command.Run

/-!
Runs whose options ask for fields by an identifier that denotes none. They print nothing. Where a
trial is selected they fail, and if its samples can be loaded they do so for the first such
identifier. Where no trial is named and there is no sample to select one by, the identifiers are not
looked at and the run does not fail.
-/

namespace TrialView.Command

/-- Not every identifier of the fields to keep denotes a field. -/
def ProjectOptions.Strays (o : ProjectOptions) (config : Config) : Prop :=
  ∃ id ∈ o.identifiers config, ¬ ∃ f, Field.Denotes id f

section

variable {o : ProjectOptions} {config : Config} {params : Params} {store : Store} {trial : String}
  {samples : List Sample}

theorem selected?_eq_none_iff : o.selected? samples = none ↔ o.trial = none ∧ samples = [] := by
  unfold ProjectOptions.selected?
  cases o.trial <;> simp

/-- A failure names the first identifier that denotes no field, as it was given. -/
def Refuses (o : ProjectOptions) (config : Config) (failure : Failure) : Prop :=
  ∃ id, IsFirst (fun id => ¬ ∃ f, Field.Denotes id f) (o.identifiers config) id ∧
    failure = ⟨"Invalid filter request", (Error.filter ⟨id⟩).causes⟩

/-- The samples that are stored do not matter. -/
theorem projectTrial_strays (hstrays : o.Strays config)
    (hget : store.get? trial = some ⟨params, samples⟩) :
    ∃ failure, projectTrial o config trial store = .error failure ∧ Refuses o config failure := by
  cases hparse : FieldFilter.parse (o.identifiers config) with
  | ok filter =>
      obtain ⟨id, hid, hnone⟩ := hstrays
      exact absurd (FieldFilter.parse_accepts_iff.mp ⟨filter, hparse⟩ id hid) hnone
  | error e =>
      obtain ⟨id, hfirst, rfl⟩ := FieldFilter.parse_eq_error_iff.mp hparse
      have hscope : Scope.ofTrial (o.request config) store trial (o.mode config) =
          .error (.filter ⟨id⟩) := by rw [ofTrial_eq hget, hparse]
      refine ⟨_, ?_, id, hfirst, rfl⟩
      rw [projectTrial, hscope]
      rfl

/-- A trial that is selected is not projected, whatever samples there are. -/
theorem projectSamples_strays (hstrays : o.Strays config) (params : Params)
    (htrial : o.selected? samples = some trial) :
    ∃ failure, projectSamples o config params samples = .error failure ∧
      (Rising (samplesOf trial samples) → Refuses o config failure) := by
  rw [projectSamples, htrial]
  rcases loadTrial_outcome trial params samples with
    ⟨-, store, hload, hget⟩ | ⟨hlate, failure, hload⟩
  · obtain ⟨failure, hproject, hrefuses⟩ := projectTrial_strays hstrays hget
    refine ⟨failure, ?_, fun _ => hrefuses⟩
    simp only [hload, ok_bind, hproject]
  · refine ⟨failure, ?_, fun hrising => absurd hrising hlate⟩
    simp only [hload, error_bind]

end

section

variable [Yaml.Reader] {lookup : String → FileContent} {path : String} {o : ProjectOptions}
  {config : Config}
  {params : Params} {samples : List Sample}

/-- A run with an identifier that denotes no field prints nothing, and fails unless there is neither
a sample nor a trial that is named. -/
theorem run_project_strays (verbose : Bool) (hfound : Found lookup path o config params samples)
    (hstrays : o.Strays config) :
    let outcome := (Invocation.mk path verbose (.project o)).run lookup
    outcome.output = [] ∧ (outcome.failure = none ↔ o.trial = none ∧ samples = []) ∧
      ∀ trial, o.selected? samples = some trial → Rising (samplesOf trial samples) →
        ∃ failure, outcome.failure = some failure ∧ Refuses o config failure := by
  rw [Invocation.run, perform_of_found hfound, ← selected?_eq_none_iff]
  cases htrial : o.selected? samples with
  | none =>
      rw [projectSamples, htrial]
      simp [Outcome.printed]
  | some trial =>
      obtain ⟨failure, hproject, hrefuses⟩ := projectSamples_strays hstrays params htrial
      rw [hproject]
      simp only [Outcome.failed, reduceCtorEq, Option.some.injEq, true_and]
      rintro _ rfl hrising
      exact ⟨failure, rfl, hrefuses hrising⟩

end

/-- The rewards of one actor, and something that is no field. -/
def scoreOfBob : ProjectOptions := { onlyBob with fields := ["reward", "score"] }

theorem scoreOfBob_strays : scoreOfBob.Strays (recordedConfig false) :=
  ⟨"score", by decide, Field.parse?_eq_none_iff.mp (by decide)⟩

theorem recorded_found_score :
    Found (recorded false) "config" scoreOfBob (recordedConfig false) recordedParams
      recordedSamples where
  config := (recorded_found false).config
  params := (recorded_found false).params
  samples := (recorded_found false).samples

/-- The first sample selects a trial, so the identifiers are looked at; the second is refused. -/
theorem recorded_run_strays :
    let outcome := (Invocation.mk "config" false (.project scoreOfBob)).run (recorded false)
    outcome.output = [] ∧
      outcome.failure = some ⟨"Invalid filter request",
        ["Filter error: Unknown sample field: score", "Unknown sample field: score"]⟩ := by
  obtain ⟨houtput, -, hrefuses⟩ := run_project_strays false recorded_found_score scoreOfBob_strays
  obtain ⟨failure, hfailure, id, hfirst, rfl⟩ := hrefuses "t" rfl recorded_rising
  simp only [← Field.parse?_eq_none_iff, ← find?_eq_some_iff_isFirst] at hfirst
  obtain rfl : "score" = id := Option.some.inj hfirst
  exact ⟨houtput, hfailure⟩

/-- The recorded files with nothing left of the samples. -/
def cleared (path : String) : FileContent :=
  if path = "samples" then .bytes [] else recorded false path

theorem cleared_found :
    Found cleared "config" scoreOfBob (recordedConfig false) recordedParams [] where
  config := (recorded_found false).config
  params := (recorded_found false).params
  samples := ⟨[], rfl, [], .nil, rfl⟩

/-- Without a sample and without the name of a trial, the same identifiers do no harm. -/
theorem cleared_run_strays :
    Found cleared "config" scoreOfBob (recordedConfig false) recordedParams [] ∧
      scoreOfBob.Strays (recordedConfig false) ∧
      ((Invocation.mk "config" false (.project scoreOfBob)).run cleared).failure = none := by
  refine ⟨cleared_found, scoreOfBob_strays, ?_⟩
  rw [Invocation.run, perform_of_found cleared_found]
  rfl

end TrialView.Command
