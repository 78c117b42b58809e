import TrialView.Tally
import Mathlib.Algebra.BigOperators.Group.List.Basic
import Mathlib.Algebra.Ring.Nat
import Mathlib.Data.List.DropRight
import Mathlib.Data.List.Induction

/-!
The counters of a tally as sums. Whatever calls a tally gets, each of its counters is the sum over
the calls since the last reset, taken modulo the size of a word. Times are cut to a word one by one
before they are added, which comes to the same as cutting their sum. As sums do not depend on an
order, neither does the tally. The average time is none when the counter of samples is zero, be it
that there were no samples or that the counter wrapped.
-/

namespace TrialView.Tally

/-- What a tally is told. -/
inductive Call where
  | record (report : Report) (took : Duration)
  | failure
  | reset
deriving Repr, DecidableEq

def serve (t : Tally) : Call → Tally
  | .record report took => t.record report took
  | .failure => t.recordFailure
  | .reset => zero

/-- The tally after calls, from the first to the last. -/
def serveAll (t : Tally) (calls : List Call) : Tally := calls.foldl serve t

/-- The calls behind the last reset. -/
def sinceReset (calls : List Call) : List Call := calls.rtakeWhile (· ≠ .reset)

/-- The reports that were recorded, each with the time that its projection took. -/
def recorded (calls : List Call) : List (Report × Duration) :=
  calls.filterMap fun call =>
    match call with
    | .record report took => some (report, took)
    | _ => none

/-- The sum over the recorded projections of a count. -/
def total (count : Report × Duration → Nat) (calls : List Call) : Nat :=
  ((recorded calls).map count).sum

/-- The counters of a tally are the sums over calls, modulo the size of a word. -/
structure Totals (t : Tally) (calls : List Call) : Prop where
  samples : t.samples.toNat = (recorded calls).length % 2 ^ 64
  failures : t.failures.toNat = calls.count .failure % 2 ^ 64
  stepsDropped : t.stepsDropped.toNat = total (·.1.stepsDropped) calls % 2 ^ 64
  payloadsTruncated : t.payloadsTruncated.toNat = total (·.1.payloadsTruncated) calls % 2 ^ 64
  bytesReleased : t.bytesReleased.toNat = total (·.1.bytesReleased) calls % 2 ^ 64
  totalTime : t.totalTime.toNat = total (·.2.toNanoseconds) calls % 2 ^ 64

section

variable {t : Tally} {calls other : List Call} {report : Report} {took : Duration}

theorem serveAll_append_singleton (t : Tally) (calls : List Call) (call : Call) :
    t.serveAll (calls ++ [call]) = (t.serveAll calls).serve call := by
  rw [serveAll, List.foldl_append]
  rfl

theorem sinceReset_append_reset : sinceReset (calls ++ [.reset]) = [] :=
  List.rtakeWhile_concat_neg _ _ _ (by simp)

theorem sinceReset_append_singleton {call : Call} (h : call ≠ .reset) :
    sinceReset (calls ++ [call]) = sinceReset calls ++ [call] :=
  List.rtakeWhile_concat_pos _ _ _ (by simpa using h)

theorem sinceReset_eq_self (h : .reset ∉ calls) : sinceReset calls = calls := by
  refine List.rtakeWhile_eq_self_iff.mpr fun call hcall => ?_
  rw [decide_eq_true_eq]
  rintro rfl
  exact h hcall

/-- The calls since the last reset are those behind a reset that no other follows. -/
theorem sinceReset_append_reset_cons (before : List Call) (h : .reset ∉ calls) :
    sinceReset (before ++ .reset :: calls) = calls := by
  induction calls using List.reverseRecOn with
  | nil => exact sinceReset_append_reset
  | append_singleton calls call ih =>
      rw [List.mem_append, List.mem_singleton, not_or] at h
      rw [← List.cons_append, ← List.append_assoc, sinceReset_append_singleton (Ne.symm h.2),
        ih h.1]

theorem recorded_append_record :
    recorded (calls ++ [.record report took]) = recorded calls ++ [(report, took)] := by
  simp [recorded]

theorem recorded_append_failure : recorded (calls ++ [.failure]) = recorded calls := by
  simp [recorded]

theorem total_append_record (count : Report × Duration → Nat) :
    total count (calls ++ [.record report took]) = total count calls + count (report, took) := by
  simp [total, recorded_append_record]

theorem total_append_failure (count : Report × Duration → Nat) :
    total count (calls ++ [.failure]) = total count calls := by
  rw [total, recorded_append_failure, total]

/-- The sums over calls, each in a word. -/
def ofCalls (calls : List Call) : Tally where
  samples := UInt64.ofNat (recorded calls).length
  failures := UInt64.ofNat (calls.count .failure)
  stepsDropped := UInt64.ofNat (total (·.1.stepsDropped) calls)
  payloadsTruncated := UInt64.ofNat (total (·.1.payloadsTruncated) calls)
  bytesReleased := UInt64.ofNat (total (·.1.bytesReleased) calls)
  totalTime := UInt64.ofNat (total (·.2.toNanoseconds) calls)

theorem totals_ofCalls (calls : List Call) : (ofCalls calls).Totals calls where
  samples := UInt64.toNat_ofNat'
  failures := UInt64.toNat_ofNat'
  stepsDropped := UInt64.toNat_ofNat'
  payloadsTruncated := UInt64.toNat_ofNat'
  bytesReleased := UInt64.toNat_ofNat'
  totalTime := UInt64.toNat_ofNat'

/-- One more record adds to the sums what it adds to the counters. -/
theorem ofCalls_append_record :
    ofCalls (calls ++ [.record report took]) = (ofCalls calls).record report took := by
  simp [ofCalls, record, recorded_append_record, total_append_record, UInt64.ofNat_add]

theorem ofCalls_append_failure :
    ofCalls (calls ++ [.failure]) = (ofCalls calls).recordFailure := by
  simp [ofCalls, recordFailure, recorded_append_failure, total_append_failure, UInt64.ofNat_add]

/-- By induction on the calls from the last one backwards. -/
theorem serveAll_zero (calls : List Call) : zero.serveAll calls = ofCalls (sinceReset calls) := by
  induction calls using List.reverseRecOn with
  | nil => rfl
  | append_singleton calls call ih =>
      rw [serveAll_append_singleton, ih]
      cases call with
      | record report took =>
          rw [sinceReset_append_singleton (by simp), ofCalls_append_record]
          rfl
      | failure =>
          rw [sinceReset_append_singleton (by simp), ofCalls_append_failure]
          rfl
      | reset =>
          rw [sinceReset_append_reset]
          rfl

theorem total_perm (h : calls.Perm other) (count : Report × Duration → Nat) :
    total count calls = total count other :=
  ((h.filterMap _).map count).sum_eq

/-- The order of the calls makes no difference to their sums. -/
theorem ofCalls_perm (h : calls.Perm other) : ofCalls calls = ofCalls other := by
  have hrecorded : (recorded calls).length = (recorded other).length :=
    (h.filterMap _).length_eq
  have hfailures : calls.count .failure = other.count .failure := h.count_eq _
  simp only [ofCalls, hrecorded, hfailures, total_perm h]

theorem averageTime_eq_zero (h : t.samples = 0) : t.averageTime = 0 :=
  if_pos h

/-- The average is the quotient rounded down. -/
theorem averageTime_bounds (h : t.samples ≠ 0) :
    t.averageTime * t.samples.toNat ≤ t.totalTime.toNat ∧
      t.totalTime.toNat < (t.averageTime + 1) * t.samples.toNat := by
  have hpos : 0 < t.samples.toNat := by
    refine Nat.pos_of_ne_zero fun hzero => h ?_
    exact UInt64.toNat_inj.mp hzero
  rw [averageTime, if_neg h]
  exact ⟨Nat.div_mul_le_self _ _, (Nat.div_lt_iff_lt_mul hpos).mp (Nat.lt_succ_self _)⟩

end

/-- Whatever a new tally is told, its counters are the sums over the calls since the last reset,
modulo the size of a word. The order of these calls makes no difference, and those before make none
at all. The average time is zero where the counter of samples is, and elsewhere the total time over
the samples, rounded down. -/
theorem totals_sinceReset (calls : List Call) :
    let t := zero.serveAll calls
    t.Totals (sinceReset calls) ∧
    (∀ other, (sinceReset other).Perm (sinceReset calls) → zero.serveAll other = t) ∧
    (t.samples = 0 → t.averageTime = 0) ∧
    (t.samples ≠ 0 → t.averageTime * t.samples.toNat ≤ t.totalTime.toNat ∧
      t.totalTime.toNat < (t.averageTime + 1) * t.samples.toNat) := by
  intro t
  have hsums : t = ofCalls (sinceReset calls) := serveAll_zero calls
  refine ⟨?_, fun other hother => ?_, averageTime_eq_zero, averageTime_bounds⟩
  · rw [hsums]
    exact totals_ofCalls _
  · rw [hsums, serveAll_zero, ofCalls_perm hother]

/-- A projection that took as long as can be told, and five nanoseconds. -/
def longest : Call := .record ⟨1, 1, 1, 1, 3⟩ ⟨2 ^ 64 - 1, 5⟩

/-- As many projections that took no time. -/
def instants (n : Nat) : List Call := .replicate n (.record ⟨1, 1, 1, 1, 3⟩ .zero)

theorem reset_notMem_instants (n : Nat) : .reset ∉ instants n :=
  fun h => Call.noConfusion (List.eq_of_mem_replicate h)

theorem recorded_longest_cons (calls : List Call) :
    recorded (longest :: calls) = (⟨1, 1, 1, 1, 3⟩, ⟨2 ^ 64 - 1, 5⟩) :: recorded calls := rfl

theorem recorded_instants (n : Nat) :
    recorded (instants n) = .replicate n (⟨1, 1, 1, 1, 3⟩, .zero) := by
  induction n with
  | zero => rfl
  | succ n ih => exact congrArg (List.cons _) ih

theorem totalTime_longest_cons (n : Nat) :
    total (·.2.toNanoseconds) (longest :: instants n) = (2 ^ 64 - 1) * 10 ^ 9 + 5 := by
  have hnone : Duration.zero.toNanoseconds = 0 := rfl
  rw [total, recorded_longest_cons, recorded_instants, List.map_cons, List.map_replicate,
    List.sum_cons, List.sum_replicate_nat, hnone, Nat.mul_zero]
  rfl

/-- A long projection before or behind as many short ones as make the counter of samples wrap, after
a failure that is forgotten. There is a time in total, and still none on average. -/
theorem totals_wrapped :
    let short := instants (2 ^ 64 - 1)
    let t := zero.serveAll (.failure :: .reset :: longest :: short)
    t.Totals (longest :: short) ∧
    zero.serveAll (short ++ [longest]) = t ∧
    t.samples = 0 ∧ t.totalTime.toNat = 2 ^ 64 - 10 ^ 9 + 5 ∧ t.averageTime = 0 := by
  generalize hn : 2 ^ 64 - 1 = n
  intro short
  have hreset : Call.reset ∉ longest :: short := by
    simp [longest, short, reset_notMem_instants]
  have hsince : sinceReset (.failure :: .reset :: longest :: short) = longest :: short :=
    sinceReset_append_reset_cons [.failure] hreset
  have hother : sinceReset (short ++ [longest]) = short ++ [longest] :=
    sinceReset_eq_self (by simp [longest, short, reset_notMem_instants])
  have htotals := totals_sinceReset (.failure :: .reset :: longest :: short)
  rw [hsince] at htotals
  generalize zero.serveAll (.failure :: .reset :: longest :: short) = t at htotals ⊢
  obtain ⟨htotals, horder, hnone, -⟩ := htotals
  have hlength : (recorded (longest :: short)).length = n + 1 := by
    rw [recorded_longest_cons, List.length_cons, recorded_instants, List.length_replicate]
  have hsamples : t.samples = 0 := by
    refine UInt64.toNat_inj.mp ?_
    rw [htotals.samples, hlength, ← hn]
    decide
  refine ⟨htotals, horder _ ?_, hsamples, ?_, hnone hsamples⟩
  · rw [hother]
    exact List.perm_append_singleton longest short
  · rw [htotals.totalTime, totalTime_longest_cons]
    decide

end TrialView.Tally
