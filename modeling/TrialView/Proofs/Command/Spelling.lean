import TrialView.Proofs.Command.Lines
import TrialView.Proofs.Encoding.Trailing
import TrialView.Proofs.Text.Utf8

/-!
Spellings of a file of samples. The samples of a text are those of its entries, the pieces between
line feeds that are not blank, and where one of them is no sample, the number of its line is told.
Nothing else about the text matters: blank lines may come and go, line feeds may have carriage
returns before them, the last one may be left off, and two texts with a line feed between them are
read one after the other.

A text is taken apart at its line feeds by `line_induction`. A line is then read with the carriage
return that may stand at its end, since the reader of JSON takes that for white space.
-/

namespace TrialView

namespace SampleFile

open Text

/-- The pieces of a text between its line feeds that are not blank. -/
def entries (cs : List Char) : List (List Char) :=
  (cs.splitOn '\n').filter fun line => !allBlank line

/-- A line is read as a sample. -/
def Records (line : List Char) (s : Sample) : Prop :=
  Json.decode Sample.read line = .ok s

/-- The first entry of a text that is no sample, by the number of its line. -/
def FailsAt (cs : List Char) (number : Nat) (fault : Fault) : Prop :=
  ∃ before line after, cs.splitOn '\n' = before ++ line :: after ∧ number = before.length + 1 ∧
    allBlank line = false ∧ Json.decode Sample.read line = .error fault ∧
    ∀ other ∈ before, allBlank other = true ∨ ∃ s, Records other s

/-- A text with a carriage return before each line feed. -/
def withReturns (cs : List Char) : List Char :=
  cs.flatMap fun c => if c = '\n' then ['\r', '\n'] else [c]

/-- Every text is a line, or a line in front of another text. -/
@[elab_as_elim]
theorem line_induction {motive : List Char → Prop} (last : ∀ line, '\n' ∉ line → motive line)
    (more : ∀ line rest, '\n' ∉ line → motive rest → motive (line ++ '\n' :: rest))
    (cs : List Char) : motive cs := by
  induction hlength : cs.length using Nat.strongRecOn generalizing cs with
  | ind n ih =>
      by_cases hfeed : '\n' ∈ cs
      · obtain ⟨line, rest, rfl, hline⟩ := List.eq_append_cons_of_mem hfeed
        apply more line rest hline
        exact ih rest.length (by simp at hlength; omega) rest rfl
      · exact last cs hfeed

section

variable {cs line : List Char} {samples : List Sample}

theorem splitOn_append (a b : List Char) :
    (a ++ '\n' :: b).splitOn '\n' = a.splitOn '\n' ++ b.splitOn '\n' :=
  List.splitOnP_append_cons a b rfl

theorem entries_append (a b : List Char) : entries (a ++ '\n' :: b) = entries a ++ entries b := by
  rw [entries, splitOn_append, List.filter_append]
  rfl

theorem entries_of_line (h : '\n' ∉ line) :
    entries line = if allBlank line then [] else [line] := by
  rw [entries, List.splitOn_eq_singleton h]
  cases hblank : allBlank line <;> simp [hblank]

/-- Text that is blank throughout has no entries, on however many lines. -/
theorem entries_of_blank (h : allBlank cs = true) : entries cs = [] := by
  induction cs using line_induction with
  | last line hline => rw [entries_of_line hline, if_pos h]
  | more line rest hline ih =>
      have hboth : allBlank line = true ∧ allBlank rest = true := by
        simp only [allBlank, List.all_append, List.all_cons, Bool.and_eq_true] at h ⊢
        exact ⟨h.1, h.2.2⟩
      rw [entries_append, entries_of_line hline, if_pos hboth.1, ih hboth.2]
      rfl

theorem allBlank_append_return (line : List Char) :
    allBlank (line ++ ['\r']) = allBlank line := by
  rw [allBlank, List.all_append]
  exact Bool.and_true _

theorem decode_append_return (line : List Char) :
    Json.decode Sample.read (line ++ ['\r']) = Json.decode Sample.read line :=
  Json.decode_append_space rfl _ line

/-! Bytes. -/

/-- A blank line holds nothing, and another one what its text is read as. -/
theorem holds_encode_iff {s? : Option Sample} :
    Holds (Utf8.encode line) s? ↔
      (allBlank line = true ∧ s? = none) ∨
        (allBlank line = false ∧ ∃ s, s? = some s ∧ Records line s) := by
  have htext := Utf8.decode?_encode line
  constructor
  · intro h
    cases h with
    | blank hdecoded hblank =>
        obtain rfl := Option.some.inj (htext.symm.trans hdecoded)
        exact .inl ⟨hblank, rfl⟩
    | sample hdecoded hblank hread =>
        obtain rfl := Option.some.inj (htext.symm.trans hdecoded)
        exact .inr ⟨hblank, _, rfl, hread⟩
  · rintro (⟨hblank, rfl⟩ | ⟨hblank, s, rfl, hread⟩)
    · exact .blank htext hblank
    · exact .sample htext hblank hread

theorem readLine?_encode_eq_error_iff {number : Nat} {e : ReadError} :
    readLine? number (Utf8.encode line) = .error e ↔
      allBlank line = false ∧ ∃ fault, Json.decode Sample.read line = .error fault ∧
        e = .malformed number fault := by
  rw [readLine?, Utf8.decode?_encode]
  cases hblank : allBlank line with
  | true => simp [hblank]
  | false =>
      cases hread : Json.decode Sample.read line with
      | ok s => simp [hblank, hread]
      | error fault => simp [hblank, hread, eq_comm]

theorem readLine?_append_return (number : Nat) (line : List Char) :
    readLine? number (Utf8.encode (line ++ ['\r'])) = readLine? number (Utf8.encode line) := by
  rw [readLine?, readLine?, Utf8.decode?_encode, Utf8.decode?_encode]
  simp only [allBlank_append_return, decode_append_return]

/-- The end of a line takes a carriage return along, which is white space for the line. -/
theorem readLines_line (number : Nat) (h : '\n' ∉ line) (bs : List UInt8) :
    readLines number (lines (Utf8.encode line ++ 10 :: bs)) =
      readLines number (Utf8.encode line :: lines bs) := by
  have hbytes : 10 ∉ Utf8.encode line := mt Utf8.newline_mem_encode.mp h
  by_cases hreturn : line.getLast? = some '\r'
  · obtain ⟨init, rfl⟩ := List.getLast?_eq_some_iff.mp hreturn
    have hinit : 10 ∉ Utf8.encode init := by
      intro hmem
      apply hbytes
      rw [Utf8.encode_append]
      exact List.mem_append_left _ hmem
    have hline : Utf8.encode (init ++ ['\r']) ++ 10 :: bs = Utf8.encode init ++ 13 :: 10 :: bs := by
      rw [Utf8.encode_append, List.append_assoc]
      rfl
    rw [hline, lines_append_return_feed hinit]
    simp only [readLines, readLine?_append_return]
  · rw [lines_append_feed hbytes (mt Utf8.getLast?_encode hreturn)]

/-- The lines of a file are read as the pieces of its text are. -/
theorem readLines_lines_encode (number : Nat) (cs : List Char) :
    readLines number (lines (Utf8.encode cs)) =
      readLines number ((cs.splitOn '\n').map Utf8.encode) := by
  induction cs using line_induction generalizing number with
  | last line hline =>
      rw [List.splitOn_eq_singleton hline]
      cases line with
      | nil => rfl
      | cons c line =>
          have hbytes : 10 ∉ Utf8.encode (c :: line) := mt Utf8.newline_mem_encode.mp hline
          rw [lines_of_not_mem hbytes Utf8.encode_cons_ne_nil]
          rfl
  | more line rest hline ih =>
      have hfeed : Utf8.encode ('\n' :: rest) = 10 :: Utf8.encode rest := rfl
      rw [splitOn_append, List.splitOn_eq_singleton hline, Utf8.encode_append, hfeed,
        readLines_line number hline]
      simp only [readLines, ih, List.singleton_append, List.map_cons]

/-! Samples. -/

theorem holds_encode_all_iff {texts : List (List Char)} :
    (∃ held, List.Forall₂ Holds (texts.map Utf8.encode) held ∧ held.reduceOption = samples) ↔
      List.Forall₂ Records (texts.filter fun line => !allBlank line) samples := by
  induction texts generalizing samples with
  | nil =>
      rw [List.filter_nil, List.forall₂_nil_left_iff]
      simp [List.reduceOption_nil, eq_comm]
  | cons line texts ih =>
      cases hblank : allBlank line with
      | true =>
          rw [List.filter_cons_of_neg (by simp [hblank]), ← ih]
          constructor
          · rintro ⟨held, hheld, rfl⟩
            cases hheld with
            | cons hline hrest =>
                obtain rfl : _ = none := by simpa [hblank] using holds_encode_iff.mp hline
                exact ⟨_, hrest, (List.reduceOption_cons_of_none _).symm⟩
          · rintro ⟨held, hheld, rfl⟩
            have hline : Holds (Utf8.encode line) none := holds_encode_iff.mpr (.inl ⟨hblank, rfl⟩)
            exact ⟨none :: held, .cons hline hheld, List.reduceOption_cons_of_none _⟩
      | false =>
          rw [List.filter_cons_of_pos (by simp [hblank])]
          constructor
          · rintro ⟨held, hheld, rfl⟩
            cases hheld with
            | cons hline hrest =>
                obtain ⟨s, rfl, hs⟩ : ∃ s, _ = some s ∧ Records line s := by
                  simpa [hblank] using holds_encode_iff.mp hline
                rw [List.reduceOption_cons_of_some]
                exact .cons hs (ih.mp ⟨_, hrest, rfl⟩)
          · intro h
            cases h with
            | @cons _ s _ _ hs hothers =>
                obtain ⟨held, hheld, rfl⟩ := ih.mpr hothers
                have hline : Holds (Utf8.encode line) (some s) :=
                  holds_encode_iff.mpr (.inr ⟨hblank, s, rfl, hs⟩)
                exact ⟨some s :: held, .cons hline hheld, List.reduceOption_cons_of_some _ _⟩

/-- The samples of a text are those of its entries. -/
theorem read_encode_eq_ok_iff :
    read (Utf8.encode cs) = .ok samples ↔ List.Forall₂ Records (entries cs) samples := by
  rw [read, readLines_lines_encode, readLines_eq_ok_iff, holds_encode_all_iff]
  rfl

theorem read_encode_eq_error_iff {e : ReadError} :
    read (Utf8.encode cs) = .error e ↔
      ∃ number fault, FailsAt cs number fault ∧ e = .malformed number fault := by
  have holds_iff {other : List Char} :
      (∃ s?, Holds (Utf8.encode other) s?) ↔ allBlank other = true ∨ ∃ s, Records other s := by
    simp only [holds_encode_iff]
    cases hblank : allBlank other <;> simp
  rw [read, readLines_lines_encode, readLines_eq_error_iff]
  constructor
  · rintro ⟨before, line, after, hlines, hbefore, hline⟩
    obtain ⟨before, rest, hsplit, rfl, hrest⟩ := List.map_eq_append_iff.mp hlines
    obtain ⟨line, after, rfl, rfl, rfl⟩ := List.map_eq_cons_iff.mp hrest
    obtain ⟨hblank, fault, hread, rfl⟩ := readLine?_encode_eq_error_iff.mp hline
    rw [List.length_map, Nat.add_comm 1]
    refine ⟨before.length + 1, fault, ⟨before, line, after, hsplit, rfl, hblank, hread, ?_⟩, rfl⟩
    intro other hother
    exact holds_iff.mp (hbefore _ (List.mem_map_of_mem hother))
  · rintro ⟨number, fault, ⟨before, line, after, hsplit, rfl, hblank, hread, hbefore⟩, rfl⟩
    refine ⟨before.map Utf8.encode, Utf8.encode line, after.map Utf8.encode, ?_, ?_, ?_⟩
    · rw [hsplit, List.map_append, List.map_cons]
    · intro other hother
      obtain ⟨text, htext, rfl⟩ := List.mem_map.mp hother
      exact holds_iff.mpr (hbefore text htext)
    · rw [List.length_map, Nat.add_comm 1]
      exact readLine?_encode_eq_error_iff.mpr ⟨hblank, fault, hread, rfl⟩

/-! Other spellings of a text. -/

theorem forall₂_append_left_iff {α β : Type} {R : α → β → Prop} {as bs : List α} {cs : List β} :
    List.Forall₂ R (as ++ bs) cs ↔
      ∃ first second,
        List.Forall₂ R as first ∧ List.Forall₂ R bs second ∧ cs = first ++ second := by
  constructor
  · intro h
    have hfirst := List.forall₂_take_append cs as bs h.flip
    have hsecond := List.forall₂_drop_append cs as bs h.flip
    exact ⟨_, _, hfirst.flip, hsecond.flip, (List.take_append_drop _ _).symm⟩
  · rintro ⟨first, second, hfirst, hsecond, rfl⟩
    exact List.rel_append hfirst hsecond

theorem exists_forall₂_iff {α β : Type} {R : α → β → Prop} {as : List α} :
    (∃ bs, List.Forall₂ R as bs) ↔ ∀ a ∈ as, ∃ b, R a b := by
  induction as with
  | nil => simp
  | cons a as ih =>
      rw [List.forall_mem_cons, ← ih]
      constructor
      · rintro ⟨_, h⟩
        cases h with
        | cons hfirst hrest => exact ⟨⟨_, hfirst⟩, _, hrest⟩
      · rintro ⟨⟨b, hfirst⟩, bs, hrest⟩
        exact ⟨b :: bs, .cons hfirst hrest⟩

theorem records_append_return {s : Sample} : Records (line ++ ['\r']) s ↔ Records line s := by
  rw [Records, Records, decode_append_return]

/-- A carriage return at the end of a text belongs to its last line. -/
theorem records_entries_append_return :
    List.Forall₂ Records (entries (cs ++ ['\r'])) samples ↔
      List.Forall₂ Records (entries cs) samples := by
  induction cs using line_induction generalizing samples with
  | last line hline =>
      have hreturn : '\n' ∉ line ++ ['\r'] := by simpa using hline
      rw [entries_of_line hline, entries_of_line hreturn, allBlank_append_return]
      cases allBlank line with
      | true => rfl
      | false => simp [List.forall₂_cons_left_iff, records_append_return]
  | more line rest hline ih =>
      rw [List.append_assoc, List.cons_append, entries_append, entries_append]
      simp only [forall₂_append_left_iff, ih]

theorem records_entries_withReturns :
    List.Forall₂ Records (entries (withReturns cs)) samples ↔
      List.Forall₂ Records (entries cs) samples := by
  have hkept {line : List Char} (hline : '\n' ∉ line) : withReturns line = line := by
    rw [withReturns, List.flatMap_congr (g := fun c => [c])]
    · exact List.flatMap_singleton' line
    · intro c hc
      apply if_neg
      rintro rfl
      exact hline hc
  induction cs using line_induction generalizing samples with
  | last line hline => rw [hkept hline]
  | more line rest hline ih =>
      have hspelled : withReturns (line ++ '\n' :: rest) =
          line ++ ['\r'] ++ '\n' :: withReturns rest := by
        rw [withReturns, List.flatMap_append, ← withReturns, hkept hline, List.append_assoc]
        rfl
      rw [hspelled, entries_append, entries_append]
      simp only [forall₂_append_left_iff, records_entries_append_return, ih]

theorem entries_intercalate (texts : List (List Char)) :
    entries (['\n'].intercalate texts) = texts.flatMap entries := by
  induction texts with
  | nil => rfl
  | cons text texts ih =>
      cases texts with
      | nil => simp
      | cons other texts =>
          rw [List.intercalate_cons_cons, List.append_assoc, List.singleton_append, entries_append,
            ih]
          rfl

/-- A line that ends nowhere, or as lines do, adds no entry. -/
theorem records_entries_append_end {ending : List Char}
    (hending : ending ∈ [['\n'], ['\r', '\n'], ['\r']]) :
    List.Forall₂ Records (entries (cs ++ ending)) samples ↔
      List.Forall₂ Records (entries cs) samples := by
  have hfeed (cs : List Char) : entries (cs ++ ['\n']) = entries cs := by
    have hnothing : entries [] = [] := rfl
    rw [entries_append, hnothing, List.append_nil]
  simp only [List.mem_cons, List.not_mem_nil, or_false] at hending
  rcases hending with rfl | rfl | rfl
  · rw [hfeed]
  · have hboth : cs ++ ['\r', '\n'] = cs ++ ['\r'] ++ ['\n'] := by simp
    rw [hboth, hfeed, records_entries_append_return]
  · exact records_entries_append_return

end

end SampleFile

namespace Command

open SampleFile

section

variable {path : String} {cs : List Char} {samples : List Sample} {failure : Failure}

theorem readSamples_encode_eq_ok_iff :
    readSamples path (.bytes (Text.Utf8.encode cs)) = .ok samples ↔
      List.Forall₂ Records (entries cs) samples := by
  rw [readSamples_eq_ok_iff, ← read_encode_eq_ok_iff, read_eq_ok_iff]
  simp

theorem readSamples_encode_eq_error_iff :
    readSamples path (.bytes (Text.Utf8.encode cs)) = .error failure ↔
      ∃ number fault, FailsAt cs number fault ∧
        failure = ⟨s!"Failed to parse sample on line {number}", [fault.message]⟩ := by
  cases hread : SampleFile.read (Text.Utf8.encode cs) with
  | ok found =>
      refine iff_of_false (by simp [readSamples, hread, pure, Except.pure]) ?_
      rintro ⟨number, fault, hfails, -⟩
      rw [read_encode_eq_error_iff.mpr ⟨number, fault, hfails, rfl⟩] at hread
      cases hread
  | error e =>
      obtain ⟨number, fault, hfails, rfl⟩ := read_encode_eq_error_iff.mp hread
      have hfailure : readSamples path (.bytes (Text.Utf8.encode cs)) =
          .error ⟨s!"Failed to parse sample on line {number}", [fault.message]⟩ := by
        simp [readSamples, hread, throw, throwThe, MonadExceptOf.throw]
      rw [hfailure, Except.error.injEq]
      constructor
      · rintro rfl
        exact ⟨number, fault, hfails, rfl⟩
      · rintro ⟨number', fault', hfails', rfl⟩
        have hsame := read_encode_eq_error_iff.mpr ⟨number', fault', hfails', rfl⟩
        rw [hread] at hsame
        cases hsame
        rfl

end

/-- What is read of a file with a text. -/
def readText (path : String) (cs : List Char) : Except Failure (List Sample) :=
  readSamples path (.bytes (Text.Utf8.encode cs))

/-- How a file with a text is read, and which other texts are read as the same samples. -/
structure ReadsText (path : String) (cs : List Char) : Prop where
  ok_iff : ∀ samples, readText path cs = .ok samples ↔ List.Forall₂ Records (entries cs) samples
  error_iff : ∀ failure, readText path cs = .error failure ↔
    ∃ number fault, FailsAt cs number fault ∧
      failure = ⟨s!"Failed to parse sample on line {number}", [fault.message]⟩
  fails_iff : (∃ failure, readText path cs = .error failure) ↔
    ∃ line ∈ entries cs, ∀ s, ¬ Records line s
  blank_line : ∀ before line after, cs = ['\n'].intercalate (before ++ after) →
    Text.allBlank line = true → ∀ samples,
      readText path (['\n'].intercalate (before ++ line :: after)) = .ok samples ↔
        readText path cs = .ok samples
  returns : ∀ samples, readText path (withReturns cs) = .ok samples ↔
    readText path cs = .ok samples
  last_end : ∀ ending ∈ [['\n'], ['\r', '\n'], ['\r']], ∀ samples,
    readText path (cs ++ ending) = .ok samples ↔ readText path cs = .ok samples
  append : ∀ other first second, readText path cs = .ok first →
    readText path other = .ok second → readText path (cs ++ '\n' :: other) = .ok (first ++ second)

/-- Every text is read by its entries, however it is spelled. -/
theorem readsText (path : String) (cs : List Char) : ReadsText path cs where
  ok_iff samples := readSamples_encode_eq_ok_iff
  error_iff failure := readSamples_encode_eq_error_iff
  fails_iff := by
    have hok : (∃ samples, readText path cs = .ok samples) ↔
        ∀ line ∈ entries cs, ∃ s, Records line s := by
      simp only [readText, readSamples_encode_eq_ok_iff, exists_forall₂_iff]
    have herror : (∃ failure, readText path cs = .error failure) ↔
        ¬ ∃ samples, readText path cs = .ok samples := by
      cases readText path cs <;> simp
    rw [herror, hok]
    push Not
    rfl
  blank_line := by
    rintro before line after rfl hblank samples
    simp only [readText, readSamples_encode_eq_ok_iff, entries_intercalate, List.flatMap_append,
      List.flatMap_cons, entries_of_blank hblank, List.nil_append]
  returns samples := by
    simp only [readText, readSamples_encode_eq_ok_iff, records_entries_withReturns]
  last_end ending hending samples := by
    simp only [readText, readSamples_encode_eq_ok_iff, records_entries_append_end hending]
  append other first second hfirst hsecond := by
    simp only [readText, readSamples_encode_eq_ok_iff] at hfirst hsecond ⊢
    rw [entries_append]
    exact List.rel_append hfirst hsecond

/-- A sample with a trial and a tick only, and its text. -/
def noted : Sample := { Sample.blank with trialId := "t", tick := 7 }

def notedText : List Char := "\x7b\"tick\":7,\"trial_id\":\"t\"\x7d".toList

/-- A line with a space that JSON does not know as one changes nothing, nor do other ends of
lines. -/
theorem noted_readsText :
    let twice := ['\n'].intercalate ([notedText] ++ [notedText])
    let spaced := ['\n'].intercalate ([notedText] ++ ['\u3000'] :: [notedText])
    readText "samples" twice = .ok [noted, noted] ∧ readText "samples" spaced = .ok [noted, noted] ∧
      readText "samples" (withReturns twice ++ ['\n']) = .ok [noted, noted] := by
  intro twice spaced
  have hrecords : Records notedText noted := by
    unfold Records
    decide +kernel
  have hentries : entries twice = [notedText, notedText] := by decide +kernel
  have htwice : readText "samples" twice = .ok [noted, noted] := by
    rw [(readsText "samples" twice).ok_iff, hentries]
    exact .cons hrecords (.cons hrecords .nil)
  refine ⟨htwice, ?_, ?_⟩
  · apply ((readsText "samples" twice).blank_line [notedText] ['\u3000'] [notedText] rfl _ _).mpr
    · exact htwice
    · decide
  · apply ((readsText "samples" (withReturns twice)).last_end ['\n'] (by simp) _).mpr
    exact ((readsText "samples" twice).returns _).mpr htwice

end Command

end TrialView
