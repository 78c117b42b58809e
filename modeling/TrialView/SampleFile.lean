import TrialView.Config
import TrialView.Json.Source
import TrialView.Sample.Form
import TrialView.Text.Blank

/-!
Files of recorded samples: one JSON text on each line. A line ends at a line feed, with or without a
carriage return before it, and the last one also at the end of the file. Blank lines are passed
over but counted.
-/

namespace TrialView.SampleFile

/-- The lines of a file, without what ends them. What follows the last line feed is a line as it
stands, unless it is empty. -/
def lines : List UInt8 → List (List UInt8)
  | [] => []
  | b :: bs =>
      if b = 10 then [] :: lines bs
      else if b = 13 ∧ bs.head? = some 10 then lines bs
      else
        match lines bs with
        | [] => [[b]]
        | line :: rest => (b :: line) :: rest

/-- Why the samples of a file cannot be had: a line that is not text, or one, by its number, that
holds no sample. -/
inductive ReadError where
  | encoding
  | malformed (line : Nat) (fault : Fault)
deriving Repr, DecidableEq

/-- The sample on a line, if the line is not blank. -/
def readLine? (number : Nat) (line : List UInt8) : Except ReadError (Option Sample) :=
  match Text.Utf8.decode? line with
  | none => .error .encoding
  | some cs =>
      if Text.allBlank cs then .ok none
      else
        match Json.decode Sample.read cs with
        | .ok s => .ok (some s)
        | .error fault => .error (.malformed number fault)

/-- Reads lines of which the first has a given number. -/
def readLines : Nat → List (List UInt8) → Except ReadError (List Sample)
  | _, [] => .ok []
  | number, line :: rest => do
      let s? ← readLine? number line
      let samples ← readLines (number + 1) rest
      pure (s?.toList ++ samples)

def read (bs : List UInt8) : Except ReadError (List Sample) :=
  readLines 1 (lines bs)

end TrialView.SampleFile
