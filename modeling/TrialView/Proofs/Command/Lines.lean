import TrialView.Command.Project
import TrialView.Proofs.Encoding.Record
import Mathlib.Data.List.Forall2
import Mathlib.Data.List.ReduceOption

/-!
A file of samples line by line. A line ends at a line feed, together with a carriage return before
it. Each line holds something by itself: nothing if its text is blank, and otherwise the sample that
its text is read as. A file is read exactly if every line holds something, whatever the numbers of
the lines, and its samples are those of its lines in order.
-/

namespace TrialView.SampleFile

open Text

section

variable {line : List UInt8}

/-- What stands before a line feed is a line of its own, unless its last byte belongs to the end of
the line. -/
theorem lines_append_feed (h : 10 ∉ line) (hreturn : line.getLast? ≠ some 13) (bs : List UInt8) :
    lines (line ++ 10 :: bs) = line :: lines bs := by
  induction line with
  | nil => simp [lines]
  | cons b line ih =>
      rw [List.mem_cons, not_or] at h
      have hrest : line.getLast? ≠ some 13 := by
        intro hlast
        exact hreturn (by rw [List.getLast?_cons, hlast]; rfl)
      have hkept : ¬ (b = 13 ∧ (line ++ 10 :: bs).head? = some 10) := by
        rintro ⟨rfl, hfeed⟩
        cases line with
        | nil => exact hreturn rfl
        | cons c line =>
            obtain rfl : c = 10 := by simpa using hfeed
            exact h.2 List.mem_cons_self
      rw [List.cons_append, lines, if_neg (Ne.symm h.1), if_neg hkept, ih h.2 hrest]

theorem lines_append_return_feed (h : 10 ∉ line) (bs : List UInt8) :
    lines (line ++ 13 :: 10 :: bs) = line :: lines bs := by
  induction line with
  | nil => simp [lines]
  | cons b line ih =>
      rw [List.mem_cons, not_or] at h
      have hkept : ¬ (b = 13 ∧ (line ++ 13 :: 10 :: bs).head? = some 10) := by
        rintro ⟨-, hfeed⟩
        cases line with
        | nil => simp at hfeed
        | cons c line =>
            obtain rfl : c = 10 := by simpa using hfeed
            exact h.2 List.mem_cons_self
      rw [List.cons_append, lines, if_neg (Ne.symm h.1), if_neg hkept, ih h.2]

/-- The last line of a file may have no end. -/
theorem lines_of_not_mem (h : 10 ∉ line) (hsome : line ≠ []) : lines line = [line] := by
  induction line with
  | nil => exact absurd rfl hsome
  | cons b line ih =>
      rw [List.mem_cons, not_or] at h
      have hkept : ¬ (b = 13 ∧ line.head? = some 10) := by
        rintro ⟨-, hfeed⟩
        exact h.2 (List.mem_of_head? hfeed)
      rw [lines, if_neg (Ne.symm h.1), if_neg hkept]
      cases line with
      | nil => rfl
      | cons c line => rw [ih h.2 (by simp)]

end

/-- What a line holds. -/
inductive Holds (line : List UInt8) : Option Sample → Prop where
  | blank {cs} (htext : Utf8.decode? line = some cs) (hblank : allBlank cs = true) :
      Holds line none
  | sample {cs s} (htext : Utf8.decode? line = some cs) (hblank : allBlank cs = false)
      (hread : Json.decode Sample.read cs = .ok s) : Holds line (some s)

/-- The lines of a file hold these samples, and no line holds anything else. -/
def HoldsAll (bs : List UInt8) (samples : List Sample) : Prop :=
  ∃ held, List.Forall₂ Holds (lines bs) held ∧ held.reduceOption = samples

variable {line : List UInt8} {s? : Option Sample} {samples : List Sample}

theorem readLine?_eq_ok_iff {number : Nat} : readLine? number line = .ok s? ↔ Holds line s? := by
  constructor
  · intro h
    unfold readLine? at h
    split at h
    · cases h
    · next cs htext =>
        split at h
        · next hblank =>
            cases h
            exact .blank htext hblank
        · next hblank =>
            cases hread : Json.decode Sample.read cs with
            | error fault => simp [hread] at h
            | ok s =>
                obtain rfl : some s = s? := by simpa [hread] using h
                exact .sample htext (by simpa using hblank) hread
  · intro h
    cases h with
    | blank htext hblank => simp [readLine?, htext, hblank]
    | sample htext hblank hread => simp [readLine?, htext, hblank, hread]

theorem readLines_eq_ok_iff {number : Nat} {lines : List (List UInt8)} :
    readLines number lines = .ok samples ↔
      ∃ held, List.Forall₂ Holds lines held ∧ held.reduceOption = samples := by
  induction lines generalizing number samples with
  | nil => simp [readLines, List.reduceOption_nil]
  | cons line lines ih =>
      rw [readLines]
      constructor
      · intro h
        cases hline : readLine? number line with
        | error e => simp [hline] at h
        | ok s? =>
            cases hrest : readLines (number + 1) lines with
            | error e => simp [hline, hrest] at h
            | ok rest =>
                obtain ⟨held, hheld, rfl⟩ := ih.mp hrest
                refine ⟨s? :: held, .cons (readLine?_eq_ok_iff.mp hline) hheld, ?_⟩
                have hsamples : s?.toList ++ held.reduceOption = samples := by
                  simpa [hline, hrest, pure, Except.pure] using h
                rw [← hsamples]
                cases s? <;> simp
      · rintro ⟨held, hheld, rfl⟩
        cases hheld with
        | cons hline hrest =>
            rw [readLine?_eq_ok_iff.mpr hline, ok_bind, ih.mpr ⟨_, hrest, rfl⟩, ok_bind]
            rename_i s? _
            cases s? <;> simp [pure, Except.pure]

/-- The first line that holds nothing ends the reading, with its own number. -/
theorem readLines_eq_error_iff {number : Nat} {lines : List (List UInt8)} {e : ReadError} :
    readLines number lines = .error e ↔
      ∃ before line after, lines = before ++ line :: after ∧
        (∀ other ∈ before, ∃ s?, Holds other s?) ∧
        readLine? (number + before.length) line = .error e := by
  induction lines generalizing number with
  | nil => simp [readLines]
  | cons line lines ih =>
      constructor
      · intro h
        rw [readLines] at h
        cases hline : readLine? number line with
        | error e' =>
            obtain rfl : e' = e := by simpa [hline] using h
            exact ⟨[], line, lines, rfl, by simp, hline⟩
        | ok s? =>
            have hrest : readLines (number + 1) lines = .error e := by
              cases hrest : readLines (number + 1) lines with
              | error e' => simpa [hline, hrest] using h
              | ok rest => simp [hline, hrest, pure, Except.pure] at h
            obtain ⟨before, other, after, rfl, hbefore, hother⟩ := ih.mp hrest
            refine ⟨line :: before, other, after, rfl, ?_, ?_⟩
            · rw [List.forall_mem_cons]
              exact ⟨⟨s?, readLine?_eq_ok_iff.mp hline⟩, hbefore⟩
            · rw [List.length_cons, Nat.add_comm before.length, ← Nat.add_assoc]
              exact hother
      · rintro ⟨before, other, after, hlines, hbefore, hother⟩
        rw [readLines]
        cases before with
        | nil =>
            obtain ⟨rfl, rfl⟩ := List.cons.inj hlines
            have hline : readLine? number line = .error e := hother
            rw [hline]
            rfl
        | cons first before =>
            obtain ⟨rfl, rfl⟩ := List.cons.inj hlines
            rw [List.forall_mem_cons] at hbefore
            obtain ⟨s?, hline⟩ := hbefore.1
            rw [List.length_cons, Nat.add_comm before.length, ← Nat.add_assoc] at hother
            rw [readLine?_eq_ok_iff.mpr hline, ok_bind,
              ih.mpr ⟨before, other, after, rfl, hbefore.2, hother⟩]
            rfl

theorem read_eq_ok_iff {bs : List UInt8} : read bs = .ok samples ↔ HoldsAll bs samples :=
  readLines_eq_ok_iff

end TrialView.SampleFile

namespace TrialView.Command

/-- Samples are read from a file that holds them, and from nothing else. -/
theorem readSamples_eq_ok_iff (path : String) {f : FileContent} {samples : List Sample} :
    readSamples path f = .ok samples ↔
      ∃ bs, f = .bytes bs ∧ SampleFile.HoldsAll bs samples := by
  cases f with
  | missing => simp [readSamples]
  | blocked => simp [readSamples]
  | directory => simp [readSamples]
  | inaccessible reason => simp [readSamples]
  | bytes bs =>
      have hread : (∃ bs', FileContent.bytes bs = .bytes bs' ∧ SampleFile.HoldsAll bs' samples) ↔
          SampleFile.read bs = .ok samples := by
        rw [SampleFile.read_eq_ok_iff]
        simp
      rw [hread]
      unfold readSamples
      simp only
      cases SampleFile.read bs with
      | ok found => simp [pure, Except.pure]
      | error e => cases e <;> simp [throw, throwThe, MonadExceptOf.throw]

end TrialView.Command
