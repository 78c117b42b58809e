import TrialView.Proofs.Command.Run
import TrialView.Proofs.Encoding.OneLine
import TrialView.Proofs.Projection.Composition
import TrialView.Proofs.Session.Snapshot
import TrialView.Proofs.Text.Utf8

/-!
What a run prints is a file of samples that a second run prints again. In compact form each sample
stands on a line of its own, which holds the sample if its numbers read back. A projection brings no
number along that its sample has not got, is of the same trial and tick, and is its own projection
through the same scope, so the second run selects the same trial, finds all ticks in order and
changes nothing.
-/

namespace TrialView

namespace Sample

variable {s : Sample}

/-- The compact text of a sample as a line of a file, with its line feed. -/
theorem encode_line (s : Sample) (rest : List Char) :
    SampleFile.lines (Text.Utf8.encode (s.render .compact ++ '\n' :: rest)) =
      Text.Utf8.encode (s.render .compact) :: SampleFile.lines (Text.Utf8.encode rest) := by
  obtain ⟨hnewline, inner, hbraces⟩ := s.render_compact
  have hfeed : Text.Utf8.encode ('\n' :: rest) = 10 :: Text.Utf8.encode rest := rfl
  have hclose : Text.Utf8.encode ['\x7d'] = [125] := rfl
  have hlast : (Text.Utf8.encode (s.render .compact)).getLast? = some 125 := by
    rw [hbraces, ← List.cons_append, Text.Utf8.encode_append, hclose, List.getLast?_concat]
  have hline : 10 ∉ Text.Utf8.encode (s.render .compact) :=
    mt Text.Utf8.newline_mem_encode.mp hnewline
  rw [Text.Utf8.encode_append, hfeed,
    SampleFile.lines_append_feed hline (by rw [hlast]; decide)]

theorem holds_render (h : ∀ x ∈ s.singles, x.ReadsBack) :
    SampleFile.Holds (Text.Utf8.encode (s.render .compact)) (some s) := by
  obtain ⟨-, inner, hbraces⟩ := s.render_compact
  refine .sample (Text.Utf8.decode?_encode _) ?_ ?_
  · rw [hbraces]
    rfl
  · rw [decode_render_eq]
    exact reread_eq_ok_iff.mpr h

end Sample

/-! Projections. -/

theorem Step.mem_singles_of_mem_retain {fields : FieldFilter} {s : Step} {x : Number.Single}
    (h : x ∈ (s.retain fields).singles) : x ∈ s.singles := by
  rw [retain_eq_clear] at h
  simp only [singles, clear, List.mem_append] at h ⊢
  rcases h with (hreward | hreceived) | hsent
  · split at hreward
    · exact .inl (.inl hreward)
    · cases hreward
  · split at hreceived
    · exact .inl (.inr hreceived)
    · cases hreceived
  · split at hsent
    · exact .inr hsent
    · cases hsent

namespace Scope

variable {scope : Scope} {s t : Sample}

theorem mem_singles_of_project (h : scope.project s = .ok t) :
    ∀ x ∈ t.singles, x ∈ s.singles := by
  intro x hx
  obtain ⟨-, rfl⟩ := Sample.project_eq_ok.mp h
  obtain ⟨shown, hshown, hx⟩ := List.mem_flatMap.mp hx
  obtain ⟨step, hstep, -, rfl⟩ := Sample.mem_shownSteps.mp hshown
  exact List.mem_flatMap.mpr ⟨step, hstep, Step.mem_singles_of_mem_retain hx⟩

/-- What a scope shows of a sample it shows as it is. -/
theorem project_of_project (h : scope.project s = .ok t) : scope.project t = .ok t := by
  obtain ⟨hfault, rfl⟩ := Sample.project_eq_ok.mp h
  refine Sample.project_eq_ok.mpr ⟨?_, s.view_self scope.fields⟩
  rw [Sample.fault?_view scope.fields (ActorFilter.SameRoster.refl scope.actors) hfault, hfault]

end Scope

namespace Command

variable {scope : Scope} {samples projected : List Sample} {trial : String}

theorem holdsAll_sheet (h : ∀ s ∈ samples, ∀ x ∈ s.singles, x.ReadsBack) :
    SampleFile.HoldsAll (Text.Utf8.encode (sheet .compact samples)) samples := by
  induction samples with
  | nil => exact ⟨[], .nil, rfl⟩
  | cons s samples ih =>
      rw [List.forall_mem_cons] at h
      obtain ⟨held, hheld, hsamples⟩ := ih h.2
      have hsheet : sheet .compact (s :: samples) =
          s.render .compact ++ '\n' :: sheet .compact samples := by
        simp [sheet]
      refine ⟨some s :: held, ?_, ?_⟩
      · rw [hsheet, s.encode_line]
        exact .cons (Sample.holds_render h.1) hheld
      · rw [List.reduceOption_cons_of_some, hsamples]

theorem Projected.again (h : Projected scope samples projected) :
    Projected scope projected projected := by
  induction h with
  | nil => exact .nil
  | cons hs _ ih => exact .cons (Scope.project_of_project hs) ih

theorem Projected.readsBack (h : Projected scope samples projected)
    (hnumbers : ∀ s ∈ samples, ∀ x ∈ s.singles, x.ReadsBack) :
    ∀ t ∈ projected, ∀ x ∈ t.singles, x.ReadsBack := by
  induction h with
  | nil => simp
  | cons hs _ ih =>
      rw [List.forall_mem_cons] at hnumbers ⊢
      exact ⟨fun x hx => hnumbers.1 x (Scope.mem_singles_of_project hs x hx), ih hnumbers.2⟩

/-- Identifiers and ticks stay. -/
theorem Projected.map_eq {α : Type} {f : Sample → α} (h : Projected scope samples projected)
    (hf : ∀ {s t}, scope.project s = .ok t → f t = f s) : projected.map f = samples.map f := by
  induction h with
  | nil => rfl
  | cons hs _ ih => rw [List.map_cons, List.map_cons, hf hs, ih]

theorem Projected.rising (h : Projected scope samples projected) (hrising : Rising samples) :
    Rising projected := by
  have hticks := h.map_eq (f := Sample.tick) fun hs => (Session.trialId_tick_of_project hs).2
  unfold Rising at hrising ⊢
  rw [← List.pairwise_map (f := Sample.tick) (R := (· < ·))] at hrising ⊢
  rwa [hticks]

theorem Projected.trialId (h : Projected scope (samplesOf trial samples) projected) :
    ∀ t ∈ projected, t.trialId = trial := by
  have hids := h.map_eq (f := Sample.trialId) fun hs => (Session.trialId_tick_of_project hs).1
  intro t ht
  have hmem : t.trialId ∈ (samplesOf trial samples).map Sample.trialId := by
    rw [← hids]
    exact List.mem_map_of_mem ht
  obtain ⟨s, hs, hid⟩ := List.mem_map.mp hmem
  have htrial : s.trialId = trial := by simpa using (List.mem_filter.mp hs).2
  rw [← hid, htrial]

/-- The trial of a projection is that of what it printed. -/
theorem Projected.selected {named : Option String}
    (h : Projected scope (samplesOf trial samples) projected)
    (htrial : named.or (samples.head?.map Sample.trialId) = some trial) :
    named.or (projected.head?.map Sample.trialId) = some trial := by
  cases named with
  | some id => exact htrial
  | none =>
      cases samples with
      | nil => simp at htrial
      | cons s samples =>
          have hs : s.trialId = trial := by simpa using htrial
          cases projected with
          | nil =>
              rw [samplesOf, List.filter_cons_of_pos (by simpa using hs)] at h
              cases h
          | cons t projected => simpa using h.trialId t List.mem_cons_self

/-- What is printed of samples is the sheet of some samples of which the same is printed, and which
have no numbers but those of the samples before. -/
theorem exists_printed_again {o : ProjectOptions} {config : Config} {params : Params}
    {text : List Char} (h : Prints (projectSamples o config params samples) text) :
    ∃ printed, text = sheet (o.style config) printed ∧
      Prints (projectSamples o config params printed) text ∧
      ((∀ s ∈ samples, ∀ x ∈ s.singles, x.ReadsBack) →
        ∀ t ∈ printed, ∀ x ∈ t.singles, x.ReadsBack) := by
  simp only [projectSamples_prints_iff] at h ⊢
  cases htrial : o.trial.or (samples.head?.map Sample.trialId) with
  | none =>
      rw [htrial] at h
      have hnamed : o.trial = none := (Option.or_eq_none_iff.mp htrial).1
      exact ⟨[], h, by simpa [hnamed] using h, by simp⟩
  | some trial =>
      rw [htrial] at h
      obtain ⟨hrising, hknown, printed, hprojected, rfl⟩ := h
      have hchosen : samplesOf trial printed = printed := by
        rw [samplesOf, List.filter_eq_self]
        simpa using hprojected.trialId
      refine ⟨printed, rfl, ?_, ?_⟩
      · rw [hprojected.selected htrial]
        refine ⟨?_, hknown, printed, ?_, rfl⟩
        · rw [hchosen]
          exact hprojected.rising hrising
        · rw [hchosen]
          exact hprojected.again
      · intro hnumbers
        apply hprojected.readsBack
        intro s hs
        exact hnumbers s (List.mem_of_mem_filter hs)

/-- The same projection of what a projection printed in compact form prints it again, if the numbers
of the samples read back. It does not matter where the samples stand, nor what the configuration and
the parameters are read with. -/
theorem run_project_again [Yaml.Reader] {lookup again : String → FileContent} {path other : String}
    {o : ProjectOptions} {config : Config} {params : Params} (verbose : Bool)
    (hfound : Found lookup path o config params samples)
    (hsucceeds : ((Invocation.mk path verbose (.project o)).run lookup).failure = none)
    (hpretty : o.pretty = false ∧ config.output.pretty = false)
    (hnumbers : ∀ s ∈ samples, ∀ x ∈ s.singles, x.ReadsBack)
    (hconfig : again path = lookup path) (hparams : again o.params = lookup o.params)
    (hprinted : again other = .bytes (Text.Utf8.encode
      ((Invocation.mk path verbose (.project o)).run lookup).output)) :
    let second := (Invocation.mk path verbose (.project { o with samples := other })).run again
    second.failure = none ∧
      second.output = ((Invocation.mk path verbose (.project o)).run lookup).output := by
  intro second
  have hstyle : o.style config = .compact := by simp [ProjectOptions.style, hpretty]
  generalize hfirst : ((Invocation.mk path verbose (.project o)).run lookup).output = text
    at hprinted ⊢
  obtain ⟨config', params', samples', hfound', hprints⟩ :=
    run_project_prints_iff.mp ⟨hsucceeds, hfirst⟩
  obtain ⟨rfl, rfl, rfl⟩ := hfound.unique hfound'
  obtain ⟨printed, hsheet, hprintsAgain, hreads⟩ := exists_printed_again hprints
  rw [hstyle] at hsheet
  have hholds : SampleFile.HoldsAll (Text.Utf8.encode text) printed := by
    rw [hsheet]
    exact holdsAll_sheet (hreads hnumbers)
  have hfoundAgain : Found again path { o with samples := other } config params printed :=
    ⟨hconfig ▸ hfound.config, hparams ▸ hfound.params, _, hprinted, hholds⟩
  -- The path of the samples has no part in the work behind the reading of files.
  exact run_project_prints_iff.mpr ⟨config, params, printed, hfoundAgain, hprintsAgain⟩

/-- The recorded files with what was printed in the place of the samples. -/
def recordedAgain (path : String) : FileContent :=
  if path = "samples" then .bytes (Text.Utf8.encode (runBob (recorded false)).output)
  else recorded false path

/-- The configuration is there for both runs, with its pattern mode and its fields. -/
theorem recorded_run_again :
    (∀ s ∈ recordedSamples, ∀ x ∈ s.singles, x.ReadsBack) ∧
      (runBob (recorded false)).failure = none ∧ (runBob recordedAgain).failure = none ∧
        (runBob recordedAgain).output = (runBob (recorded false)).output := by
  have hhalf : (⟨0x3F000000⟩ : Number.Single).ReadsBack :=
    ⟨['0', '.', '5'], by decide +kernel, by decide +kernel⟩
  have hnumbers : ∀ s ∈ recordedSamples, ∀ x ∈ s.singles, x.ReadsBack := by
    simp [recordedSamples, Sample.singles, Step.singles, Step.blank, hhalf]
  have hfound := recorded_found false
  have hprints : Prints
      (projectSamples onlyBob (recordedConfig false) recordedParams recordedSamples)
      (sheet .compact recordedRewards) :=
    projectSamples_prints_iff.mpr
      ⟨recorded_rising, recorded_known false, _, recorded_projected false, rfl⟩
  have hfirst : (runBob (recorded false)).failure = none ∧
      (runBob (recorded false)).output = sheet .compact recordedRewards :=
    run_project_prints_iff.mpr ⟨_, _, _, hfound, hprints⟩
  have hconfig : recordedAgain "config" = recorded false "config" := if_neg (by decide)
  have hparams : recordedAgain "params" = recorded false "params" := if_neg (by decide)
  have hprinted : recordedAgain "samples" =
      .bytes (Text.Utf8.encode (runBob (recorded false)).output) := if_pos rfl
  have hagain := run_project_again false hfound hfirst.1 ⟨rfl, rfl⟩ hnumbers hconfig hparams
    hprinted
  exact ⟨hnumbers, hfirst.1, hagain⟩

end Command

end TrialView
