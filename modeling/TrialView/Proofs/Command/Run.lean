import TrialView.Proofs.Command.Stages

/-!
Runs of the projection. A run that does not fail has found all its documents, and what it prints is
what the scope of its options shows of the samples of the selected trial. The samples of other
trials have to be readable and have no other part in a run. A run that comes to a sample that cannot
be projected has printed those before it. All this holds whatever reader the configuration and the
parameters are read with.
-/

namespace TrialView.Command

/-- A task prints a text and does not fail. -/
def Prints (result : Except Failure Outcome) (text : List Char) : Prop :=
  ∃ outcome, result = .ok outcome ∧ outcome.failure = none ∧ outcome.output = text

section

variable {o : ProjectOptions} {config : Config} {params : Params} {store : Store} {trial : String}
  {samples : List Sample} {text : List Char}

theorem prints_bind_iff {α : Type} {first : Except Failure α} {next : α → Except Failure Outcome} :
    Prints (first >>= next) text ↔ ∃ a, first = .ok a ∧ Prints (next a) text := by
  cases first <;> simp [Prints]

theorem projectTrial_prints_iff (hget : store.get? trial = some ⟨params, samples⟩) :
    Prints (projectTrial o config trial store) text ↔
      o.Known config ∧ ∃ projected, Projected (o.scope config params) samples projected ∧
        sheet (o.style config) projected = text := by
  have hsamples : store.samples trial = .ok samples :=
    Store.map_find_eq_ok_iff.mpr ⟨_, hget, rfl⟩
  rw [projectTrial, prints_bind_iff]
  simp only [mapError_eq_ok_iff, ofTrial_eq_ok_iff hget, hsamples, prints_bind_iff,
    Except.ok.injEq, exists_eq_left', and_assoc]
  rw [exists_and_left, exists_eq_left']
  simp only [Prints, pure, Except.pure, Except.ok.injEq, exists_eq_left', printSamples_eq_none_iff]

theorem projectSamples_prints_iff :
    Prints (projectSamples o config params samples) text ↔
      match o.trial.or (samples.head?.map Sample.trialId) with
      | none => text = []
      | some trial =>
          Rising (samplesOf trial samples) ∧ o.Known config ∧
            ∃ projected, Projected (o.scope config params) (samplesOf trial samples) projected ∧
              sheet (o.style config) projected = text := by
  have hselected : o.selected? samples = o.trial.or (samples.head?.map Sample.trialId) := by
    unfold ProjectOptions.selected?
    cases o.trial <;> rfl
  rw [projectSamples, hselected]
  cases o.trial.or (samples.head?.map Sample.trialId) with
  | none => simp [Prints, Outcome.printed, eq_comm]
  | some trial =>
      simp only [prints_bind_iff]
      rcases loadTrial_outcome trial params samples with
        ⟨hrising, store, hload, hget⟩ | ⟨hlate, failure, hload⟩
      · simp [hload, hrising, projectTrial_prints_iff hget]
      · simp [hload, hlate]

/-- A projection prints whenever nothing is wrong with the samples of the trial it selects. -/
theorem exists_projectSamples_prints_iff :
    (∃ text, Prints (projectSamples o config params samples) text) ↔
      ∀ trial, o.trial.or (samples.head?.map Sample.trialId) = some trial →
        Rising (samplesOf trial samples) ∧ o.Known config ∧
          ∀ s ∈ samplesOf trial samples, ∃ t, (o.scope config params).project s = .ok t := by
  simp only [projectSamples_prints_iff]
  cases o.trial.or (samples.head?.map Sample.trialId) with
  | none => simp
  | some trial =>
      constructor
      · rintro ⟨text, hrising, hknown, projected, hprojected, -⟩ _ hsame
        obtain rfl := Option.some.inj hsame
        exact ⟨hrising, hknown, exists_projected_iff.mp ⟨projected, hprojected⟩⟩
      · intro h
        obtain ⟨hrising, hknown, hall⟩ := h trial rfl
        obtain ⟨projected, hprojected⟩ := exists_projected_iff.mpr hall
        exact ⟨_, hrising, hknown, projected, hprojected, rfl⟩

end

/-- What is found at the paths of a projection: a configuration, which is the default one if there
is no file, parameters, and a file each of whose lines is blank or holds a sample. -/
structure Found [Yaml.Reader] (lookup : String → FileContent) (path : String) (o : ProjectOptions)
    (config : Config) (params : Params) (samples : List Sample) : Prop where
  config : Config.ofFileOrDefault (lookup path) = .ok config
  params : readParams o.params (lookup o.params) = .ok params
  samples : ∃ bs, lookup o.samples = .bytes bs ∧ SampleFile.HoldsAll bs samples

section

variable [Yaml.Reader] {lookup : String → FileContent} {path : String} {verbose : Bool}
  {o : ProjectOptions} {config : Config} {params : Params} {samples : List Sample}
  {text : List Char}

theorem Found.unique {config' : Config} {params' : Params} {samples' : List Sample}
    (h : Found lookup path o config params samples)
    (h' : Found lookup path o config' params' samples') :
    config = config' ∧ params = params' ∧ samples = samples' := by
  have hsamples := (readSamples_eq_ok_iff o.samples).mpr h.samples
  have hsamples' := (readSamples_eq_ok_iff o.samples).mpr h'.samples
  refine ⟨Except.ok.inj (h.config.symm.trans h'.config),
    Except.ok.inj (h.params.symm.trans h'.params), Except.ok.inj (hsamples.symm.trans hsamples')⟩

/-- With its documents found, a task projects the samples. -/
theorem perform_of_found (hfound : Found lookup path o config params samples) :
    (Task.project o).perform lookup path = projectSamples o config params samples := by
  have hread := (readSamples_eq_ok_iff o.samples).mpr hfound.samples
  rw [Task.perform, hfound.config, hfound.params, hread]
  rfl

theorem run_prints_iff {i : Invocation} :
    (i.run lookup).failure = none ∧ (i.run lookup).output = text ↔
      Prints (i.task.perform lookup i.config) text := by
  rw [Invocation.run, Prints]
  cases i.task.perform lookup i.config <;> simp [Outcome.failed]

/-- What a run prints is a matter of the documents that are found and of nothing else. -/
theorem run_project_prints_iff :
    let outcome := (Invocation.mk path verbose (.project o)).run lookup
    outcome.failure = none ∧ outcome.output = text ↔
      ∃ config params samples, Found lookup path o config params samples ∧
        Prints (projectSamples o config params samples) text := by
  intro outcome
  refine run_prints_iff.trans ?_
  simp only [Task.perform, prints_bind_iff, mapError_eq_ok_iff]
  constructor
  · rintro ⟨config, hconfig, params, hparams, samples, hsamples, hprints⟩
    have hread := (readSamples_eq_ok_iff o.samples).mp hsamples
    exact ⟨config, params, samples, ⟨hconfig, hparams, hread⟩, hprints⟩
  · rintro ⟨config, params, samples, hfound, hprints⟩
    have hread := (readSamples_eq_ok_iff o.samples).mpr hfound.samples
    exact ⟨config, hfound.config, params, hfound.params, samples, hread, hprints⟩

end

/-- A projection from the command line is the projection of the samples of one trial. A run does not
fail exactly if its documents can be read and, where a trial is selected, by its name or by the
first sample, the ticks of its samples rise, every identifier names a field and each of its samples
is projected. What is printed then is the texts of these projections in the order of the file, each
with a line feed. What the configuration and the parameters are is up to their reader. -/
theorem run_project [Yaml.Reader] (lookup : String → FileContent) (path : String) (verbose : Bool)
    (o : ProjectOptions) :
    let outcome := (Invocation.mk path verbose (.project o)).run lookup
    (outcome.failure = none ↔
      ∃ config params samples, Found lookup path o config params samples ∧
        ∀ trial, o.trial.or (samples.head?.map Sample.trialId) = some trial →
          Rising (samplesOf trial samples) ∧ o.Known config ∧
            ∀ s ∈ samplesOf trial samples, ∃ t, (o.scope config params).project s = .ok t) ∧
    ∀ config params samples trial, Found lookup path o config params samples →
      o.trial.or (samples.head?.map Sample.trialId) = some trial → outcome.failure = none →
        ∃ projected, Projected (o.scope config params) (samplesOf trial samples) projected ∧
          outcome.output =
            sheet (if o.pretty || config.output.pretty then .indented else .compact) projected := by
  intro outcome
  have hruns (text : List Char) := @run_project_prints_iff _ lookup path verbose o text
  constructor
  · constructor
    · intro hnone
      obtain ⟨config, params, samples, hfound, hprints⟩ := (hruns outcome.output).mp ⟨hnone, rfl⟩
      exact ⟨config, params, samples, hfound, exists_projectSamples_prints_iff.mp ⟨_, hprints⟩⟩
    · rintro ⟨config, params, samples, hfound, hselected⟩
      obtain ⟨text, hprints⟩ := exists_projectSamples_prints_iff.mpr hselected
      exact ((hruns text).mpr ⟨config, params, samples, hfound, hprints⟩).1
  · intro config params samples trial hfound htrial hnone
    obtain ⟨config', params', samples', hfound', hprints⟩ :=
      (hruns outcome.output).mp ⟨hnone, rfl⟩
    obtain ⟨rfl, rfl, rfl⟩ := hfound.unique hfound'
    rw [projectSamples_prints_iff, htrial] at hprints
    obtain ⟨-, -, projected, hprojected, htext⟩ := hprints
    exact ⟨projected, hprojected, htext.symm⟩

/-- A configuration that has patterns matched as globs and keeps rewards, parameters of two actors,
and samples of two trials with a blank line, a carriage return and no line feed at the end. -/
def recorded (pretty : Bool) (path : String) : FileContent :=
  if path = "config" then
    .bytes (Text.Utf8.encode (["matching: glob\noutput:\n  pretty: ", toString pretty,
      "\ndefault_fields: [reward]\n"].flatMap String.toList))
  else if path = "params" then
    .bytes (Text.Utf8.encode (["actors:\n",
      "- \x7bname: alice, actor_class: c, implementation: i\x7d\n",
      "- \x7bname: bob, actor_class: c, implementation: i\x7d\n"].flatMap String.toList))
  else if path = "samples" then
    .bytes (Text.Utf8.encode (["\x7b\"trial_id\":\"t\",\"tick\":1,\"actor_samples\":[",
      "\x7b\"actor\":0,\"observation\":0\x7d,", "\x7b\"actor\":1,\"reward\":0.5,\"action\":1\x7d],",
      "\"payloads\":[[1],[2]]\x7d\n \n", "\x7b\"trial_id\":\"u\",\"tick\":0\x7d\r\n",
      "\x7b\"trial_id\":\"t\",\"tick\":2\x7d"].flatMap String.toList))
  else .missing

def recordedConfig (pretty : Bool) : Config := ⟨.glob, ⟨pretty, false⟩, ["reward"]⟩

def recordedParams : Params :=
  ⟨[], 0, 0, none, [⟨"alice", "c", "i", "", []⟩, ⟨"bob", "c", "i", "", []⟩]⟩

def recordedSamples : List Sample :=
  [ ⟨"", "t", 1, 0, [{ Step.blank with actor := 0, observation := some 0 },
      { Step.blank with actor := 1, reward := some ⟨0x3F000000⟩, action := some 1 }], [[1], [2]]⟩,
    ⟨"", "u", 0, 0, [], []⟩, ⟨"", "t", 2, 0, [], []⟩ ]

/-- The actors whose names begin with a letter. The fields are left to the configuration. -/
def onlyBob : ProjectOptions :=
  ⟨"params", "samples", none, ["b*"], [], [], [], false, false, false⟩

def runBob (lookup : String → FileContent) : Outcome :=
  (Invocation.mk "config" false (.project onlyBob)).run lookup

set_option maxRecDepth 4000 in
theorem recorded_found (pretty : Bool) :
    Found (recorded pretty) "config" onlyBob (recordedConfig pretty) recordedParams
      recordedSamples where
  config := by cases pretty <;> decide +kernel
  params := by cases pretty <;> decide +kernel
  samples := (readSamples_eq_ok_iff "samples").mp (by cases pretty <;> decide +kernel)

/-- What is printed of the recorded samples: the reward of the second actor, and all ticks. -/
def recordedRewards : List Sample :=
  [ ⟨"", "t", 1, 0, [{ Step.blank with actor := 1, reward := some ⟨0x3F000000⟩ }], [[], []]⟩,
    ⟨"", "t", 2, 0, [], []⟩ ]

theorem recorded_rising : Rising (samplesOf "t" recordedSamples) := by
  simp [Rising, samplesOf, recordedSamples]

/-- The fields that the configuration keeps. -/
theorem recorded_known (pretty : Bool) : onlyBob.Known (recordedConfig pretty) := by
  intro id hid
  obtain rfl := List.mem_singleton.mp hid
  exact ⟨.reward, by decide⟩

theorem recorded_projected (pretty : Bool) :
    Projected (onlyBob.scope (recordedConfig pretty) recordedParams)
      (samplesOf "t" recordedSamples) recordedRewards :=
  .cons rfl (.cons rfl .nil)

/-- The first sample selects the trial, and the blank line and the other trial do no harm. How the
pattern is matched, which fields are kept and how the samples are printed is as configured. -/
theorem recorded_run :
    (runBob (recorded true)).failure = none ∧
      (runBob (recorded true)).output = sheet .indented recordedRewards := by
  unfold runBob
  obtain ⟨hsucceeds, hprints⟩ := run_project (recorded true) "config" false onlyBob
  have hfound := recorded_found true
  have hselected : ∀ trial,
      onlyBob.trial.or (recordedSamples.head?.map Sample.trialId) = some trial →
        Rising (samplesOf trial recordedSamples) ∧ onlyBob.Known (recordedConfig true) ∧
          ∀ s ∈ samplesOf trial recordedSamples,
            ∃ t, (onlyBob.scope (recordedConfig true) recordedParams).project s = .ok t := by
    intro trial htrial
    obtain rfl : "t" = trial := Option.some.inj htrial
    exact ⟨recorded_rising, recorded_known true,
      exists_projected_iff.mp ⟨_, recorded_projected true⟩⟩
  have hnone := hsucceeds.mpr ⟨_, _, _, hfound, hselected⟩
  obtain ⟨projected, hprojected, htext⟩ := hprints _ _ _ "t" hfound rfl hnone
  obtain rfl := hprojected.unique (recorded_projected true)
  exact ⟨hnone, htext⟩

/-- A run that comes to a sample of the trial that cannot be projected has printed the projections
of those before it, and fails with the reason. -/
theorem run_project_until_error [Yaml.Reader] {lookup : String → FileContent} {path trial : String}
    {o : ProjectOptions} {config : Config} {params : Params}
    {samples done rest projected : List Sample} {bad : Sample} {e : ProjectionError}
    (verbose : Bool)
    (hfound : Found lookup path o config params samples)
    (htrial : o.selected? samples = some trial)
    (hrising : Rising (samplesOf trial samples)) (hknown : o.Known config)
    (hsamples : samplesOf trial samples = done ++ bad :: rest)
    (hdone : Projected (o.scope config params) done projected)
    (hbad : (o.scope config params).project bad = .error e) :
    let outcome := (Invocation.mk path verbose (.project o)).run lookup
    outcome.output = sheet (o.style config) projected ∧
      outcome.failure = some ⟨"Failed to project sample", (Error.projection e).causes⟩ := by
  rcases loadTrial_outcome trial params samples with
    ⟨-, store, hload, hget⟩ | ⟨hlate, -⟩
  · have hscope := (ofTrial_eq_ok_iff hget).mpr ⟨hknown, rfl⟩
    have hstored : store.samples trial = .ok (done ++ bad :: rest) :=
      Store.map_find_eq_ok_iff.mpr ⟨_, hget, hsamples⟩
    obtain ⟨between, hfirst⟩ :=
      printSamples_append (o.style config) hdone (bad :: rest) .zero
    obtain ⟨tally, hfail⟩ := printSamples_cons_error (o.style config) hbad rest between
    rw [Invocation.run, perform_of_found hfound, projectSamples, htrial]
    simp only [hload, ok_bind, projectTrial, hscope, hstored, hfirst, hfail, Except.mapError,
      List.append_nil, pure, Except.pure, and_self]
  · exact absurd hrising hlate

end TrialView.Command
