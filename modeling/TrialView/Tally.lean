import TrialView.Number.Double
import TrialView.Projection

/-!
Counts of what projections did. Every counter is a word of sixty-four bits and wraps.
-/

namespace TrialView

open Number

structure Duration where
  seconds : Nat
  nanoseconds : Nat
deriving Repr, DecidableEq

namespace Duration

def zero : Duration := ⟨0, 0⟩

def nanosecondsPerSecond : Nat := 1000000000

def toNanoseconds (d : Duration) : Nat := d.seconds * nanosecondsPerSecond + d.nanoseconds

def ofNanoseconds (n : Nat) : Duration :=
  ⟨n / nanosecondsPerSecond, n % nanosecondsPerSecond⟩

/-- Thousandths of a second in double arithmetic: whole seconds and the rest are rounded apart,
then their sum, then the product. -/
def milliseconds (d : Duration) : Magnitude :=
  let ms? : Option Magnitude := do
    let whole ← Magnitude.ofNat? .double d.seconds
    let rest ← Magnitude.round? .double d.nanoseconds nanosecondsPerSecond
    (← whole.add? .double rest).mul? .double (← Magnitude.ofNat? .double 1000)
  ms?.getD .zero

end Duration

structure Tally where
  samples : UInt64
  failures : UInt64
  stepsDropped : UInt64
  payloadsTruncated : UInt64
  bytesReleased : UInt64
  /-- Nanoseconds spent on the samples that were projected. -/
  totalTime : UInt64
deriving Repr, DecidableEq

namespace Tally

def zero : Tally := ⟨0, 0, 0, 0, 0, 0⟩

/-- Counts a projection that succeeded. -/
def record (t : Tally) (r : Report) (took : Duration) : Tally :=
  { t with
    samples := t.samples + 1
    stepsDropped := t.stepsDropped + UInt64.ofNat r.stepsDropped
    payloadsTruncated := t.payloadsTruncated + UInt64.ofNat r.payloadsTruncated
    bytesReleased := t.bytesReleased + UInt64.ofNat r.bytesReleased
    totalTime := t.totalTime + UInt64.ofNat took.toNanoseconds }

/-- Counts a projection that failed. -/
def recordFailure (t : Tally) : Tally :=
  { t with failures := t.failures + 1 }

/-- Counts a projection by its outcome. -/
def count (t : Tally) (outcome : Except ProjectionError (Sample × Report)) (took : Duration) :
    Tally :=
  match outcome with
  | .ok (_, r) => t.record r took
  | .error _ => t.recordFailure

/-- Nanoseconds for each sample, rounded down; none when there is no sample. -/
def averageTime (t : Tally) : Nat :=
  if t.samples = 0 then 0 else t.totalTime.toNat / t.samples.toNat

/-- The first two lines of the printed form, which depend on the counts alone. -/
def countLines (t : Tally) : List String :=
  [ s!"Samples: {t.samples.toNat} | Failures: {t.failures.toNat} | " ++
      s!"Steps dropped: {t.stepsDropped.toNat}",
    s!"  Payloads truncated: {t.payloadsTruncated.toNat} | " ++
      s!"Bytes released: {t.bytesReleased.toNat}" ]

def timeLine (t : Tally) : String :=
  let ms := fixedText 3 (Duration.ofNanoseconds t.averageTime).milliseconds
  s!"  Avg Time: {String.ofList ms}ms"

/-- The printed form: three lines, each with its line feed. -/
def text (t : Tally) : String :=
  String.join ((t.countLines ++ [t.timeLine]).map (· ++ "\n"))

end Tally

end TrialView
