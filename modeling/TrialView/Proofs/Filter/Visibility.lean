import TrialView.Proofs.Projection.Meet

/-!
Which actors of a roster a filter made from patterns shows. An actor has to pass in three respects,
its name, its class and its implementation; in each of them a list of patterns admits what one of
its patterns matches, and the empty list admits everything. Only three empty lists make a filter
that restricts nothing. All other filters hold one flag for each actor of the roster, so an actor
beyond it is unknown to them. The filter is the meet of the filters for the three respects.
-/

namespace TrialView

namespace MatchMode

/-- A pattern is equal to a text or, in glob mode, matches it. -/
def Matches : MatchMode → String → String → Prop
  | .exact, pattern, text => pattern = text
  | .glob, pattern, text => Glob.matchText pattern text = true

/-- Some pattern of a list matches a text, or there is no pattern. -/
def Admits (mode : MatchMode) (patterns : List String) (text : String) : Prop :=
  patterns = [] ∨ ∃ pattern ∈ patterns, mode.Matches pattern text

theorem admits_congr {mode : MatchMode} {ps qs : List String} {text : String}
    (h : ∀ p, p ∈ ps ↔ p ∈ qs) : mode.Admits ps text ↔ mode.Admits qs text := by
  simp only [Admits, List.eq_nil_iff_forall_not_mem, h]

end MatchMode

namespace Matcher

theorem isUnrestricted_ofPatterns {patterns : List String} {mode : MatchMode} :
    (ofPatterns patterns mode).isUnrestricted = true ↔ patterns = [] := by
  cases patterns <;> cases mode <;> simp [ofPatterns, isUnrestricted]

theorem accepts_of_isUnrestricted {m : Matcher} (h : m.isUnrestricted = true) (text : String) :
    m.accepts text = true := by
  cases m with
  | unrestricted => rfl
  | exact names => contradiction
  | glob patterns => contradiction

/-- Keeping patterns as a sorted set does not change what they admit. -/
theorem accepts_ofPatterns {patterns : List String} {mode : MatchMode} {text : String} :
    (ofPatterns patterns mode).accepts text = true ↔ mode.Admits patterns text := by
  cases patterns with
  | nil => simp [ofPatterns, accepts, MatchMode.Admits]
  | cons p ps =>
      cases mode <;>
        simp [ofPatterns, accepts, MatchMode.Admits, MatchMode.Matches, Text.mem_namesOf]

/-- Two matchers restrict alike and accept the same texts. -/
structure Agrees (m m' : Matcher) : Prop where
  isUnrestricted : m.isUnrestricted = m'.isUnrestricted
  accepts : ∀ text, m.accepts text = m'.accepts text

theorem agrees_ofPatterns {ps qs : List String} {mode mode' : MatchMode}
    (hempty : ps = [] ↔ qs = []) (hadmits : ∀ text, mode.Admits ps text ↔ mode'.Admits qs text) :
    (ofPatterns ps mode).Agrees (ofPatterns qs mode') where
  isUnrestricted := by
    rw [Bool.eq_iff_iff, isUnrestricted_ofPatterns, isUnrestricted_ofPatterns, hempty]
  accepts := by
    intro text
    rw [Bool.eq_iff_iff, accepts_ofPatterns, accepts_ofPatterns, hadmits text]

theorem agrees_of_mem_iff {ps qs : List String} {mode : MatchMode} (h : ∀ p, p ∈ ps ↔ p ∈ qs) :
    (ofPatterns ps mode).Agrees (ofPatterns qs mode) := by
  apply agrees_ofPatterns
  · simp only [List.eq_nil_iff_forall_not_mem, h]
  · intro text
    exact MatchMode.admits_congr h

end Matcher

namespace ActorSet

/-- The places of the visible actors as numbers. -/
def places (s : ActorSet) : List Nat := (s.visible.zipIdx.filter (·.1)).map (·.2)

theorem mem_places {s : ActorSet} {place : Nat} :
    place ∈ s.places ↔ s.visible[place]? = some true := by
  simp [places, List.mem_zipIdx_iff_getElem?]

theorem places_rising (s : ActorSet) : s.places.Pairwise (· < ·) := by
  have hall : (s.visible.zipIdx.map (·.2)).Pairwise (· < ·) := by
    rw [List.zipIdx_map_snd]
    exact List.pairwise_lt_range'
  exact hall.sublist (List.filter_sublist.map _)

/-- A place of a roster that is not too long fits into the type of an index. -/
theorem indices_toNat {s : ActorSet} (hroster : s.rosterSize ≤ UInt32.size) :
    s.indices.map (·.toNat) = s.places := by
  rw [indices, List.map_map, places]
  apply List.map_congr_left
  intro entry hentry
  have hplace : entry.2 < s.rosterSize := by
    have hmem := List.mem_zipIdx (List.mem_filter.mp hentry).1
    simpa [rosterSize] using hmem.2.1
  exact UInt32.toNat_ofNat_of_lt' (Nat.lt_of_lt_of_le hplace hroster)

theorem mem_indices_toNat {s : ActorSet} (hroster : s.rosterSize ≤ UInt32.size) {place : Nat} :
    place ∈ s.indices.map (·.toNat) ↔ s.visible[place]? = some true := by
  rw [indices_toNat hroster, mem_places]

theorem indices_rising {s : ActorSet} (hroster : s.rosterSize ≤ UInt32.size) :
    s.indices.Pairwise (· < ·) := by
  have hplaces := s.places_rising
  rw [← indices_toNat hroster, List.pairwise_map] at hplaces
  exact hplaces.imp UInt32.lt_iff_toNat_lt.mpr

theorem indices_length (s : ActorSet) : s.indices.length = s.size := by
  calc
    s.indices.length = s.visible.zipIdx.countP (·.1) := by
      rw [indices, List.length_map, List.countP_eq_length_filter]
    _ = (s.visible.zipIdx.map Prod.fst).countP id := by
      rw [List.countP_map]
      rfl
    _ = s.size := by rw [List.zipIdx_map_fst, size]

/-- A set holds the actors of a roster that have a property. -/
structure Holds (s : ActorSet) (roster : List Actor) (p : Actor → Prop) : Prop where
  rosterSize : s.rosterSize = roster.length
  visible : ∀ (place : Nat) (actor : Actor), roster[place]? = some actor →
    (s.visible[place]? = some true ↔ p actor)
  known : ∀ place : UInt32, place.toNat < roster.length →
    ∃ visible, s.visible[place.toNat]? = some visible ∧
      (ActorFilter.restricted s).includes place = .ok visible
  unknown : ∀ place : UInt32, roster.length ≤ place.toNat →
    (ActorFilter.restricted s).includes place = .error ⟨place, roster.length⟩
  rising : s.indices.Pairwise (· < ·)
  indices : ∀ place : Nat, place ∈ s.indices.map (·.toNat) ↔ s.visible[place]? = some true
  size : s.size = s.indices.length

theorem rosterSize_map (roster : List Actor) (test : Actor → Bool) :
    rosterSize ⟨roster.map test⟩ = roster.length := List.length_map test

/-- A set made by a test on the actors of a roster holds those that pass it. -/
theorem holds_map {roster : List Actor} (hroster : roster.length ≤ UInt32.size)
    (test : Actor → Bool) :
    Holds ⟨roster.map test⟩ roster fun a => test a = true where
  rosterSize := rosterSize_map roster test
  visible := by
    intro place actor hactor
    simp [hactor]
  known := by
    intro place hplace
    have hflag : (roster.map test)[place.toNat]? = some (test roster[place.toNat]) := by
      simp [hplace]
    exact ⟨_, hflag, by simp [ActorFilter.includes, get?, hflag]⟩
  unknown := by
    intro place hplace
    have hflag : (roster.map test)[place.toNat]? = none := by simpa using hplace
    simp [ActorFilter.includes, get?, hflag, rosterSize_map]
  rising := indices_rising (rosterSize_map roster test ▸ hroster)
  indices := fun _ => mem_indices_toNat (rosterSize_map roster test ▸ hroster)
  size := (indices_length _).symm

end ActorSet

namespace ActorFilter

/-- The filter of a test on actors, which restricts nothing if all actors pass anyway. -/
def ofTest (passesAll : Bool) (test : Actor → Bool) (roster : List Actor) : ActorFilter :=
  if passesAll then .unrestricted else .restricted ⟨roster.map test⟩

theorem ofTest_eq_unrestricted_iff {all : Bool} {test : Actor → Bool} {roster : List Actor} :
    ofTest all test roster = .unrestricted ↔ all = true := by
  cases all <;> simp [ofTest]

theorem ofTest_eq_restricted_iff {all : Bool} {test : Actor → Bool} {roster : List Actor}
    {set : ActorSet} :
    ofTest all test roster = .restricted set ↔ all = false ∧ ⟨roster.map test⟩ = set := by
  cases all <;> simp [ofTest]

/-- The meet of two filters is the filter of both tests. -/
theorem meet_ofTest {all all' : Bool} {test test' : Actor → Bool} {roster : List Actor}
    (hall : all = true → ∀ a, test a = true) (hall' : all' = true → ∀ a, test' a = true) :
    (ofTest all test roster).meet (ofTest all' test' roster) =
      ofTest (all && all') (fun a => test a && test' a) roster := by
  -- A test that all actors pass drops out of the conjunction, as its filter drops out of the meet.
  cases all with
  | true => simp [ofTest, meet, hall]
  | false =>
      cases all' with
      | true => simp [ofTest, meet, hall']
      | false => simp [ofTest, meet, List.zipWith_map, List.zipWith_self]

section

variable (names classes implementations : Matcher) (roster : List Actor)

theorem ofMatchers_eq_ofTest :
    ofMatchers names classes implementations roster =
      ofTest (names.isUnrestricted && classes.isUnrestricted && implementations.isUnrestricted)
        (fun a => names.accepts a.name && classes.accepts a.actorClass
          && implementations.accepts a.implementation) roster := rfl

/-- Matchers that agree make the same filter. -/
theorem ofMatchers_congr {names names' classes classes' implementations implementations' : Matcher}
    {roster : List Actor} (hnames : names.Agrees names') (hclasses : classes.Agrees classes')
    (himplementations : implementations.Agrees implementations') :
    ofMatchers names classes implementations roster =
      ofMatchers names' classes' implementations' roster := by
  simp only [ofMatchers_eq_ofTest, hnames.isUnrestricted, hclasses.isUnrestricted,
    himplementations.isUnrestricted, hnames.accepts, hclasses.accepts, himplementations.accepts]

/-- The filter of three matchers is the meet of the filters of one matcher each. -/
theorem ofMatchers_eq_meet :
    ofMatchers names classes implementations roster =
      ((ofMatchers names .unrestricted .unrestricted roster).meet
        (ofMatchers .unrestricted classes .unrestricted roster)).meet
          (ofMatchers .unrestricted .unrestricted implementations roster) := by
  have hname : ofMatchers names .unrestricted .unrestricted roster =
      ofTest names.isUnrestricted (fun a => names.accepts a.name) roster := by
    simp [ofMatchers_eq_ofTest, Matcher.isUnrestricted, Matcher.accepts]
  have hclass : ofMatchers .unrestricted classes .unrestricted roster =
      ofTest classes.isUnrestricted (fun a => classes.accepts a.actorClass) roster := by
    simp [ofMatchers_eq_ofTest, Matcher.isUnrestricted, Matcher.accepts]
  have himplementation : ofMatchers .unrestricted .unrestricted implementations roster =
      ofTest implementations.isUnrestricted (fun a => implementations.accepts a.implementation)
        roster := by
    simp [ofMatchers_eq_ofTest, Matcher.isUnrestricted, Matcher.accepts]
  rw [hname, hclass, himplementation, meet_ofTest, meet_ofTest, ofMatchers_eq_ofTest]
  · intro hfree a
    obtain ⟨hnames, hclasses⟩ := Bool.and_eq_true_iff.mp hfree
    simp [Matcher.accepts_of_isUnrestricted, hnames, hclasses]
  · intro hfree a
    exact Matcher.accepts_of_isUnrestricted hfree _
  · intro hfree a
    exact Matcher.accepts_of_isUnrestricted hfree _
  · intro hfree a
    exact Matcher.accepts_of_isUnrestricted hfree _

end

/-- An actor is admitted in all three respects. -/
def Admits (mode : MatchMode) (names classes implementations : List String) (a : Actor) : Prop :=
  mode.Admits names a.name ∧ mode.Admits classes a.actorClass ∧
    mode.Admits implementations a.implementation

section

variable {names classes implementations : List String} {roster : List Actor} {mode : MatchMode}

theorem ofPatterns_eq_unrestricted_iff :
    ofPatterns names classes implementations roster mode = .unrestricted ↔
      names = [] ∧ classes = [] ∧ implementations = [] := by
  rw [ofPatterns, ofMatchers_eq_ofTest, ofTest_eq_unrestricted_iff]
  simp only [Bool.and_eq_true, Matcher.isUnrestricted_ofPatterns, and_assoc]

theorem holds_of_ofPatterns {set : ActorSet} (hroster : roster.length ≤ UInt32.size)
    (h : ofPatterns names classes implementations roster mode = .restricted set) :
    set.Holds roster (Admits mode names classes implementations) := by
  rw [ofPatterns, ofMatchers_eq_ofTest, ofTest_eq_restricted_iff] at h
  obtain ⟨_, rfl⟩ := h
  have hadmits : Admits mode names classes implementations = fun a =>
      ((Matcher.ofPatterns names mode).accepts a.name &&
        (Matcher.ofPatterns classes mode).accepts a.actorClass &&
        (Matcher.ofPatterns implementations mode).accepts a.implementation) = true := by
    funext a
    simp only [Admits, Bool.and_eq_true, Matcher.accepts_ofPatterns, and_assoc]
  rw [hadmits]
  exact ActorSet.holds_map hroster _

/-- A filter knows its patterns as sets. -/
theorem ofPatterns_congr {names' classes' implementations' : List String}
    (hnames : ∀ p, p ∈ names' ↔ p ∈ names) (hclasses : ∀ p, p ∈ classes' ↔ p ∈ classes)
    (himplementations : ∀ p, p ∈ implementations' ↔ p ∈ implementations) :
    ofPatterns names' classes' implementations' roster mode =
      ofPatterns names classes implementations roster mode := by
  apply ofMatchers_congr
  · exact Matcher.agrees_of_mem_iff hnames
  · exact Matcher.agrees_of_mem_iff hclasses
  · exact Matcher.agrees_of_mem_iff himplementations

/-- A filter made from patterns restricts nothing exactly when there is no pattern at all, and
otherwise holds the actors that are admitted in all three respects. The order and repetition of
patterns do not matter, and the filter is the meet of those made from one list each. -/
theorem ofPatterns_conjunction (names classes implementations : List String) (mode : MatchMode)
    (hroster : roster.length ≤ UInt32.size) :
    (ofPatterns names classes implementations roster mode = .unrestricted ↔
      names = [] ∧ classes = [] ∧ implementations = []) ∧
    (∀ set, ofPatterns names classes implementations roster mode = .restricted set →
      set.Holds roster (Admits mode names classes implementations)) ∧
    (∀ names' classes' implementations', (∀ p, p ∈ names' ↔ p ∈ names) →
      (∀ p, p ∈ classes' ↔ p ∈ classes) → (∀ p, p ∈ implementations' ↔ p ∈ implementations) →
      ofPatterns names' classes' implementations' roster mode =
        ofPatterns names classes implementations roster mode) ∧
    ofPatterns names classes implementations roster mode =
      ((ofPatterns names [] [] roster mode).meet (ofPatterns [] classes [] roster mode)).meet
        (ofPatterns [] [] implementations roster mode) := by
  refine ⟨ofPatterns_eq_unrestricted_iff, fun _ => holds_of_ofPatterns hroster, ?_, ?_⟩
  · intro _ _ _ hnames hclasses himplementations
    exact ofPatterns_congr hnames hclasses himplementations
  · exact ofMatchers_eq_meet _ _ _ roster

/-- Two of the actors have one class, and two have one implementation. -/
def crew : List Actor :=
  [⟨"learner-1", "agent", "default", "", []⟩, ⟨"learner-2", "mentor", "default", "", []⟩,
    ⟨"scripted", "agent", "heuristic", "", []⟩]

/-- The last actor passes by name and fails by implementation. -/
theorem crew_conjunction :
    let names := ["learner-?", "*d"]
    let implementations := ["default", ""]
    let set : ActorSet := ⟨[true, true, false]⟩
    crew.length ≤ UInt32.size ∧
    ofPatterns names [] implementations crew .glob = .restricted set ∧
    set.Holds crew (Admits .glob names [] implementations) ∧
    (∀ p, p ∈ names.reverse ++ names ↔ p ∈ names) ∧
    ofPatterns (names.reverse ++ names) [] implementations crew .glob = .restricted set := by
  intro names implementations set
  have hroster : crew.length ≤ UInt32.size := by decide
  have hset : ofPatterns names [] implementations crew .glob = .restricted set := rfl
  have hnames : ∀ p, p ∈ names.reverse ++ names ↔ p ∈ names := by simp
  obtain ⟨_, hholds, hsets, _⟩ := ofPatterns_conjunction names [] implementations .glob hroster
  refine ⟨hroster, hset, hholds set hset, hnames, ?_⟩
  exact (hsets _ _ _ hnames (fun _ => Iff.rfl) (fun _ => Iff.rfl)).trans hset

end

end ActorFilter

end TrialView
