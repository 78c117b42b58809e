import TrialView.Proofs.Filter.Visibility
import TrialView.Proofs.Text.Utf8

/-!
Patterns without special characters. On such a pattern the machine never remembers a place to go
back to. It stands at one position in the pattern and in the subject, compares them byte by byte and
stops at the first difference, so the pattern matches itself and nothing else. Filters made from
such patterns are therefore the same in both modes.
-/

namespace TrialView

namespace Glob

/-- The characters that do not stand for themselves. The comma is none of them: it means something
within braces only. -/
def specials : List Char := ['*', '?', '[', ']', '\x7b', '\x7d', '\\', '!']

/-- No character of a pattern is special. -/
def Literal (pattern : String) : Prop := ∀ c ∈ pattern.toList, c ∉ specials

/-- No byte of a pattern is that of a special character. -/
def Plain (glob : List UInt8) : Prop := ∀ c ∈ specials, byte c ∉ glob

theorem plain_encode {pattern : String} (h : Literal pattern) :
    Plain (Text.Utf8.encode pattern.toList) := by
  intro c hspecial hbyte
  have hascii : ∀ c ∈ specials, c.toNat < 0x80 := by simp [specials]
  have hmem : c ∈ pattern.toList := (Text.Utf8.ascii_mem_encode (hascii c hspecial)).mp hbyte
  exact h c hmem hspecial

theorem Plain.ne {glob : List UInt8} (hplain : Plain glob) {c : Char} (hspecial : c ∈ specials)
    {b : UInt8} (hb : b ∈ glob) : b ≠ byte c := by
  rintro rfl
  exact hplain c hspecial hb

/-- The machine at one position in the pattern and in the subject, with nothing to go back to. -/
def inStep (i : Nat) : Machine := ⟨⟨i, i, .none, .none⟩, [], 0⟩

section

variable {glob path : List UInt8}

theorem backtrack_inStep (i : Nat) : backtrack glob path (inStep i) = .failed := rfl

theorem step_inStep_end {i : Nat} (hend : glob[i]? = none) :
    step glob path (inStep i) = if path[i]? = none then .matched else .failed := by
  cases hc : path[i]? with
  | none => simp [step, inStep, hend, hc]
  | some c =>
      have hstep : step glob path (inStep i) = backtrack glob path (inStep i) := by
        simp [step, inStep, hend, hc]
      rw [hstep, backtrack_inStep]
      rfl

/-- A byte that is not special is compared with that of the subject. -/
theorem step_inStep (hplain : Plain glob) {i : Nat} {b : UInt8} (hb : glob[i]? = some b) :
    step glob path (inStep i) =
      if path[i]? = some b then .continue (inStep (i + 1)) else .failed := by
  have hmem : b ∈ glob := List.mem_of_getElem? hb
  have hstar : b ≠ byte '*' := hplain.ne (by decide) hmem
  have hquestion : b ≠ byte '?' := hplain.ne (by decide) hmem
  have hclass : b ≠ byte '[' := hplain.ne (by decide) hmem
  have hbrace : b ≠ byte '\x7b' := hplain.ne (by decide) hmem
  have hescape : b ≠ byte '\\' := hplain.ne (by decide) hmem
  cases hc : path[i]? with
  | none =>
      have hstep : step glob path (inStep i) = backtrack glob path (inStep i) := by
        simp [step, inStep, hb, hc, hstar]
      rw [hstep, backtrack_inStep]
      rfl
  | some c =>
      have hstep : step glob path (inStep i) = stepLiteral glob path (inStep i) b c := by
        simp [step, inStep, hb, hc, hstar, hquestion, hclass, hbrace]
      have hitself : unescape? glob (inStep i).state.pattern b = some (b, i) := if_neg hescape
      rw [hstep, stepLiteral, hitself]
      by_cases hsame : b = c
      · simp [inStep, hsame, Mark.none]
      · simp only [inStep, hsame, Option.some.injEq, if_false, Ne.symm hsame]
        exact backtrack_inStep i

/-- By induction on the rest of the subject. What pattern and subject have in common stands before
the position of the machine and is not looked at again. -/
theorem run_inStep {done rest subject : List UInt8} {fuel : Nat} (hplain : Plain (done ++ rest))
    (hfuel : subject.length < fuel) :
    run (done ++ rest) (done ++ subject) fuel (inStep done.length) =
      if rest = subject then .matched else .failed := by
  induction subject generalizing done rest fuel with
  | nil =>
      obtain ⟨fuel, rfl⟩ := Nat.exists_eq_succ_of_ne_zero (Nat.ne_of_gt hfuel)
      cases rest with
      | nil => simp [run, step_inStep_end]
      | cons b rest =>
          have hb : (done ++ b :: rest)[done.length]? = some b := by simp
          simp [run, step_inStep hplain hb]
  | cons c subject ih =>
      obtain ⟨fuel, rfl⟩ := Nat.exists_eq_succ_of_ne_zero (Nat.ne_zero_of_lt hfuel)
      cases rest with
      | nil => simp [run, step_inStep_end]
      | cons b rest =>
          have hb : (done ++ b :: rest)[done.length]? = some b := by simp
          by_cases hsame : c = b
          · subst hsame
            have hnext :
                run (done ++ c :: rest) (done ++ c :: subject) (fuel + 1) (inStep done.length) =
                  run ((done ++ [c]) ++ rest) ((done ++ [c]) ++ subject) fuel
                    (inStep (done ++ [c]).length) := by
              simp [run, step_inStep hplain hb]
            rw [hnext, ih (by simpa using hplain) (Nat.lt_of_succ_lt_succ hfuel)]
            simp
          · simp [run, step_inStep hplain hb, hsame, Ne.symm hsame]

theorem length_lt_stepBound : path.length < stepBound glob path := by
  have hbase : path.length < (glob.length + 3) * (path.length + 2) := by
    calc
      path.length < path.length + 2 := by omega
      _ ≤ (glob.length + 3) * (path.length + 2) := Nat.le_mul_of_pos_left _ (by omega)
  exact Nat.lt_of_lt_of_le hbase (Nat.le_self_pow (by decide) _)

theorem negations_of_plain (hplain : Plain glob) : negations glob = 0 := by
  cases glob with
  | nil => rfl
  | cons b glob =>
      have hmark : b ≠ byte '!' := hplain.ne (by decide) List.mem_cons_self
      simp [negations, hmark]

theorem matchBytes_iff_of_plain (hplain : Plain glob) :
    matchBytes glob path = true ↔ glob = path := by
  have hrun : run glob path (stepBound glob path) ⟨⟨0, 0, .none, .none⟩, [], 0⟩ =
      if glob = path then .matched else .failed :=
    @run_inStep [] glob path _ hplain length_lt_stepBound
  rw [matchBytes, negations_of_plain hplain]
  simp only [hrun]
  by_cases hsame : glob = path <;> simp [hsame]

end

/-- A literal pattern matches the text that is equal to it and no other. -/
theorem matchText_iff_of_literal {pattern text : String} (h : Literal pattern) :
    matchText pattern text = true ↔ pattern = text := by
  rw [matchText, matchBytes_iff_of_plain (plain_encode h), Text.Utf8.encode_inj, String.toList_inj]

end Glob

theorem MatchMode.admits_glob_iff_exact {patterns : List String} {text : String}
    (h : ∀ p ∈ patterns, Glob.Literal p) :
    MatchMode.glob.Admits patterns text ↔ MatchMode.exact.Admits patterns text := by
  apply or_congr Iff.rfl
  apply exists_congr
  intro p
  apply and_congr_right
  intro hp
  exact Glob.matchText_iff_of_literal (h p hp)

theorem Matcher.agrees_glob_exact {patterns : List String} (h : ∀ p ∈ patterns, Glob.Literal p) :
    (ofPatterns patterns .glob).Agrees (ofPatterns patterns .exact) := by
  apply agrees_ofPatterns Iff.rfl
  intro text
  exact MatchMode.admits_glob_iff_exact h

namespace ActorFilter

variable {names classes implementations : List String}

/-- On literal patterns both modes make the same filter, so every sample is projected through both
with the same result or the same error, and for each list of patterns both modes accept the same
texts. -/
theorem ofPatterns_glob_eq_exact (roster : List Actor) (hnames : ∀ p ∈ names, Glob.Literal p)
    (hclasses : ∀ p ∈ classes, Glob.Literal p)
    (himplementations : ∀ p ∈ implementations, Glob.Literal p) :
    ofPatterns names classes implementations roster .glob =
      ofPatterns names classes implementations roster .exact ∧
    (∀ (s : Sample) (fields : FieldFilter),
      s.project (ofPatterns names classes implementations roster .glob) fields =
        s.project (ofPatterns names classes implementations roster .exact) fields) ∧
    ∀ patterns ∈ [names, classes, implementations], ∀ text,
      (Matcher.ofPatterns patterns .glob).accepts text =
        (Matcher.ofPatterns patterns .exact).accepts text := by
  have hsame : ofPatterns names classes implementations roster .glob =
      ofPatterns names classes implementations roster .exact := by
    apply ofMatchers_congr
    · exact Matcher.agrees_glob_exact hnames
    · exact Matcher.agrees_glob_exact hclasses
    · exact Matcher.agrees_glob_exact himplementations
  refine ⟨hsame, ?_, ?_⟩
  · intro s fields
    rw [hsame]
  · intro patterns hpatterns text
    have hliteral : ∀ p ∈ patterns, Glob.Literal p := by
      simp only [List.mem_cons, List.not_mem_nil, or_false] at hpatterns
      rcases hpatterns with rfl | rfl | rfl
      · exact hnames
      · exact hclasses
      · exact himplementations
    exact (Matcher.agrees_glob_exact hliteral).accepts text

/-- The patterns hold a comma, a slash, a letter of two bytes and nothing at all; each is the
beginning of a name that it does not admit. -/
theorem comma_glob_eq_exact :
    let names := ["ä,b", "", "c/"]
    let actor (name : String) : Actor := ⟨name, "agent", "", "", []⟩
    let roster := ["ä,b", "ä,b/", "", "c/d", "c/"].map actor
    (∀ p ∈ names, Glob.Literal p) ∧
    ofPatterns names ["agent"] [] roster .glob =
      .restricted ⟨[true, false, true, false, true]⟩ := by
  intro names actor roster
  have hnames : ∀ p ∈ names, Glob.Literal p := by simp [names, Glob.Literal, Glob.specials]
  have hclasses : ∀ p ∈ ["agent"], Glob.Literal p := by simp [Glob.Literal, Glob.specials]
  have himplementations : ∀ p ∈ ([] : List String), Glob.Literal p := by simp
  obtain ⟨hsame, _, _⟩ := ofPatterns_glob_eq_exact roster hnames hclasses himplementations
  refine ⟨hnames, hsame.trans ?_⟩
  rfl

end ActorFilter

end TrialView
