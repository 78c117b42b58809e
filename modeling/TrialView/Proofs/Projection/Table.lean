import TrialView.Projection

/-!
What sweeping does to a payload table. Every place is looked at on its own, so a sweep is told by
what it leaves at each place, and two sweeps are one that keeps what both keep. The counts of a
report then follow from the table before and the table after, whatever was to be kept.
-/

namespace TrialView.Projection

/-- A sweep keeps a place or empties it. -/
theorem sweep_getElem? (keep : Nat → Bool) (payloads : List (List UInt8)) (place : Nat) :
    (sweep (slotsOf keep payloads))[place]? =
      payloads[place]?.map fun p => if keep place then p else [] := by
  simp [sweep, slotsOf, List.getElem?_zipIdx, Function.comp_def]

@[simp] theorem sweep_length (keep : Nat → Bool) (payloads : List (List UInt8)) :
    (sweep (slotsOf keep payloads)).length = payloads.length := by
  simp [sweep, slotsOf]

theorem slotsOf_fst (keep : Nat → Bool) (payloads : List (List UInt8)) :
    (slotsOf keep payloads).map Prod.fst = payloads := by
  simp [slotsOf, Function.comp_def]

theorem sweep_keep (keep : Nat → Bool) (payloads : List (List UInt8)) (place : Nat)
    (hkeep : keep place = true) :
    (sweep (slotsOf keep payloads))[place]? = payloads[place]? := by
  rw [sweep_getElem?, hkeep]
  simp

theorem sweep_drop (keep : Nat → Bool) (payloads : List (List UInt8)) (place : Nat)
    (hplace : place < payloads.length) (hkeep : keep place = false) :
    (sweep (slotsOf keep payloads))[place]? = some [] := by
  rw [sweep_getElem?, hkeep, List.getElem?_eq_getElem hplace]
  rfl

/-- Sweeping twice keeps what both sweeps keep. -/
theorem sweep_sweep (first second : Nat → Bool) (payloads : List (List UInt8)) :
    sweep (slotsOf second (sweep (slotsOf first payloads))) =
      sweep (slotsOf (fun place => first place && second place) payloads) := by
  apply List.ext_getElem?
  intro place
  simp only [sweep_getElem?, Option.map_map]
  congr 1
  funext p
  cases first place <;> simp

/-- A table is swept when it has the payloads to keep in their places and is empty elsewhere. -/
theorem sweep_eq {keep : Nat → Bool} {payloads swept : List (List UInt8)}
    (hlength : swept.length = payloads.length)
    (hkept : ∀ place, keep place = true → swept[place]? = payloads[place]?)
    (hemptied : ∀ place < payloads.length, keep place = false → swept[place]? = some []) :
    sweep (slotsOf keep payloads) = swept := by
  apply List.ext_getElem?
  intro place
  cases hkeep : keep place with
  | true => rw [sweep_keep keep payloads place hkeep, hkept place hkeep]
  | false =>
      by_cases hplace : place < payloads.length
      · rw [sweep_drop keep payloads place hplace hkeep, hemptied place hplace hkeep]
      · rw [List.getElem?_eq_none (by rw [sweep_length]; omega),
          List.getElem?_eq_none (by rw [hlength]; omega)]

/-- A sweep reads no more of a table than its length and the payloads that it keeps. -/
theorem sweep_congr {keep : Nat → Bool} {before after : List (List UInt8)}
    (hlength : before.length = after.length)
    (hkept : ∀ place, keep place = true → before[place]? = after[place]?) :
    sweep (slotsOf keep before) = sweep (slotsOf keep after) := by
  apply sweep_eq
  · rw [sweep_length, hlength]
  · intro place hkeep
    rw [sweep_keep keep after place hkeep, hkept place hkeep]
  · intro place hplace hkeep
    exact sweep_drop keep after place (hlength ▸ hplace) hkeep

/-- How many payloads of a table are not empty. -/
def occupied (payloads : List (List UInt8)) : Nat := payloads.countP fun p => !p.isEmpty

theorem countLive_eq (slots : Slots) : countLive slots = occupied (sweep slots) := by
  simp only [countLive, occupied, sweep, List.countP_map]
  congr 1
  funext slot
  cases hkeep : slot.2 <;> simp [hkeep]

/-- A payload that is not empty is either live or truncated. -/
theorem countLive_add_countTruncated (slots : Slots) :
    countLive slots + countTruncated slots = occupied (slots.map Prod.fst) := by
  induction slots with
  | nil => rfl
  | cons slot slots ih =>
      obtain ⟨p, keep⟩ := slot
      simp only [countLive, countTruncated, occupied, List.countP_map, List.countP_cons] at ih ⊢
      cases keep <;> simp <;> omega

/-- The bytes of a table are those released and those left. -/
theorem bytesReleased_add (slots : Slots) :
    bytesReleased slots + (sweep slots).flatten.length =
      (slots.map Prod.fst).flatten.length := by
  induction slots with
  | nil => rfl
  | cons slot slots ih =>
      obtain ⟨p, keep⟩ := slot
      simp only [bytesReleased, sweep, List.flatMap_cons, List.map_cons, List.flatten_cons,
        List.length_append] at ih ⊢
      cases keep <;> simp only [if_true, Bool.false_eq_true, if_false, List.length_nil] <;> omega

/-- A payload that is truncated releases a byte or more. -/
theorem countTruncated_le_bytesReleased (slots : Slots) :
    countTruncated slots ≤ bytesReleased slots := by
  induction slots with
  | nil => exact Nat.le_refl 0
  | cons slot slots ih =>
      obtain ⟨p, keep⟩ := slot
      simp only [countTruncated, bytesReleased, List.countP_cons, List.flatMap_cons,
        List.length_append] at ih ⊢
      have hslot : (if (!keep && !p.isEmpty) = true then 1 else 0) ≤
          (if keep = true then [] else p).length := by
        cases keep <;> cases p <;> simp
      omega

/-- A sweep truncates nothing exactly when it leaves the table as it was. -/
theorem countTruncated_eq_zero_iff (slots : Slots) :
    countTruncated slots = 0 ↔ sweep slots = slots.map Prod.fst := by
  rw [countTruncated, List.countP_eq_zero, sweep, List.map_inj_left]
  have hslot (slot : List UInt8 × Bool) :
      ¬ (!slot.2 && !slot.1.isEmpty) = true ↔ (if slot.2 then slot.1 else []) = slot.1 := by
    obtain ⟨p, keep⟩ := slot
    cases keep <;> cases p <;> simp
  exact forall₂_congr fun slot _ => hslot slot

theorem countTruncated_eq (keep : Nat → Bool) (payloads : List (List UInt8)) :
    countTruncated (slotsOf keep payloads) =
      occupied payloads - occupied (sweep (slotsOf keep payloads)) := by
  have hcount := countLive_add_countTruncated (slotsOf keep payloads)
  rw [countLive_eq, slotsOf_fst] at hcount
  omega

theorem bytesReleased_eq (keep : Nat → Bool) (payloads : List (List UInt8)) :
    bytesReleased (slotsOf keep payloads) =
      payloads.flatten.length - (sweep (slotsOf keep payloads)).flatten.length := by
  have hbytes := bytesReleased_add (slotsOf keep payloads)
  rw [slotsOf_fst] at hbytes
  omega

end TrialView.Projection
