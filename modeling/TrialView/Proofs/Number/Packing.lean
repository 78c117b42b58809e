import TrialView.Number.Single
import TrialView.Proofs.Number.Rounding

/-!
What the bits of a single-precision number stand for, and which number a value is rounded to: the
nearest one with the sign, or an infinity past the range. There is exactly one such number, and it
is the one that a rounded magnitude is packed into.
-/

namespace TrialView.Number

namespace Single

/-- The number of a sign that a value is rounded to. In an infinity all bits of the exponent are set,
and none of the fraction. -/
inductive Rounds (negative : Bool) (q : ℚ) (x : Single) : Prop
  | finite {m : Magnitude} (hsign : x.isNegative = negative) (hm : x.magnitude? = some m)
      (h : Format.single.Nearest q m.value)
  | infinite {v : ℚ} (hsign : x.isNegative = negative) (hfield : x.exponentField = 255)
      (hfraction : x.fraction = 0) (h : Format.single.Nearest q v)
      (hle : 2 ^ Format.single.overflow ≤ v)

section

variable {x y : Single} {m : Magnitude} {negative : Bool} {q : ℚ}

theorem eq_of_fields (hsign : x.isNegative = y.isNegative)
    (hfield : x.exponentField = y.exponentField) (hfraction : x.fraction = y.fraction) : x = y := by
  obtain ⟨a⟩ := x
  obtain ⟨b⟩ := y
  have ha := a.toNat_lt
  have hb := b.toNat_lt
  have hbits : a.toNat = b.toNat := by
    simp only [isNegative, decide_eq_decide] at hsign
    simp only [exponentField] at hfield
    simp only [fraction] at hfraction
    omega
  rw [UInt32.toNat_inj.mp hbits]

theorem fraction_lt (x : Single) : x.fraction < 2 ^ 23 :=
  Nat.mod_lt _ (by decide)

theorem exponentField_lt (x : Single) : x.exponentField < 256 :=
  Nat.mod_lt _ (by decide)

theorem canonical_single {m : Magnitude} (hleast : -149 ≤ m.exponent) (hlt : m.significand < 2 ^ 24)
    (hle : -149 < m.exponent → 2 ^ 23 ≤ m.significand) : m.Canonical .single :=
  ⟨hleast, hlt, hle⟩

/-- The magnitudes that bits stand for are written in the one way of the format, in its range. -/
theorem canonical_magnitude? (h : x.magnitude? = some m) :
    m.Canonical .single ∧ m.value < 2 ^ Format.single.overflow := by
  have hfraction := x.fraction_lt
  have hfield := x.exponentField_lt
  obtain ⟨hcanonical, hexponent⟩ : m.Canonical .single ∧ m.exponent ≤ 104 := by
    rw [magnitude?] at h
    split_ifs at h with hspecial hsmall <;> obtain rfl := Option.some.inj h
    · refine ⟨canonical_single (le_refl _) ?_ fun hlt => absurd hlt (lt_irrefl _), ?_⟩ <;>
        dsimp only <;> omega
    · refine ⟨canonical_single ?_ ?_ fun _ => ?_, ?_⟩ <;> dsimp only <;> omega
  refine ⟨hcanonical, not_le.mp fun hover => ?_⟩
  have hpast : 128 < m.exponent + 24 := (hcanonical.overflow_iff Format.regular_single).mpr hover
  omega

/-- Sign and magnitude fix all bits. -/
theorem eq_of_magnitude? (hsign : x.isNegative = y.isNegative) (hx : x.magnitude? = some m)
    (hy : y.magnitude? = some m) : x = y := by
  have hxfraction := x.fraction_lt
  have hyfraction := y.fraction_lt
  have hfields : x.exponentField = y.exponentField ∧ x.fraction = y.fraction := by
    rw [magnitude?] at hx hy
    split_ifs at hx hy with hxspecial hxsmall hyspecial hysmall hyspecial hysmall <;>
      rw [← Option.some.inj hx, Option.some.injEq, Magnitude.mk.injEq] at hy <;> omega
  exact eq_of_fields hsign hfields.1 hfields.2

/-- A magnitude is rounded to one number of a sign only. -/
theorem Rounds.unique (hx : x.Rounds negative q) (hy : y.Rounds negative q) : x = y := by
  have hp := Format.regular_single.precision_pos
  cases hx with
  | finite hxsign hxm hxq =>
      cases hy with
      | finite hysign hym hyq =>
          have hvalue := hxq.unique hp hyq
          have hsame := (canonical_magnitude? hxm).1.eq_of_value_eq hp
            (canonical_magnitude? hym).1 hvalue
          exact eq_of_magnitude? (hxsign.trans hysign.symm) hxm (hsame ▸ hym)
      | infinite _ _ _ hyq hyle =>
          obtain rfl := hxq.unique hp hyq
          exact absurd (canonical_magnitude? hxm).2 (not_lt.mpr hyle)
  | infinite hxsign hxfield hxfraction hxq hxle =>
      cases hy with
      | finite _ hym hyq =>
          obtain rfl := hyq.unique hp hxq
          exact absurd (canonical_magnitude? hym).2 (not_lt.mpr hxle)
      | infinite hysign hyfield hyfraction _ _ =>
          exact eq_of_fields (hxsign.trans hysign.symm) (hxfield.trans hyfield.symm)
            (hxfraction.trans hyfraction.symm)

/-- The fields of bits below the sign. -/
theorem fields_withSign (negative : Bool) {bits : Nat} (h : bits < 2 ^ 31) :
    (withSign negative bits).isNegative = negative ∧
      (withSign negative bits).exponentField = bits / 2 ^ 23 ∧
        (withSign negative bits).fraction = bits % 2 ^ 23 := by
  have hbits : (withSign negative bits).bits.toNat = bits + if negative then 2 ^ 31 else 0 := by
    have hsize : UInt32.size = 2 ^ 32 := rfl
    refine UInt32.toNat_ofNat_of_lt' ?_
    cases negative <;> simp only [if_true, Bool.false_eq_true, if_false] <;> omega
  rw [isNegative, exponentField, fraction, hbits]
  cases negative
  · simp only [Bool.false_eq_true, if_false, decide_eq_false_iff_not]
    omega
  · simp only [if_true, decide_eq_true_eq]
    omega

/-- What a rounded magnitude is packed into. -/
theorem rounds_ofMagnitude (negative : Bool) {r? : Option Magnitude}
    (h : Magnitude.Rounds .single q r?) : (ofMagnitude negative r?).Rounds negative q := by
  cases h with
  | @inRange r hr h hlt =>
      obtain ⟨m, e⟩ := r
      have hleast : -149 ≤ e := hr.least
      have hbits : m < 2 ^ 24 := hr.lt
      have hfull : -149 < e → 2 ^ 23 ≤ m := hr.le
      have hexponent : ¬ 128 < e + 24 := fun hpast =>
        absurd hlt (not_lt.mpr ((hr.overflow_iff Format.regular_single).mp hpast))
      obtain ⟨k, hk⟩ := Int.eq_ofNat_of_zero_le (show 0 ≤ e + 149 by omega)
      obtain ⟨hsign, hfield, hfraction⟩ :=
        fields_withSign negative (show k * 2 ^ 23 + m < 2 ^ 31 by omega)
      have hpacked : ofMagnitude negative (some ⟨m, e⟩) = withSign negative (k * 2 ^ 23 + m) := by
        simp only [ofMagnitude, hk, Int.toNat_natCast]
        rfl
      rw [hpacked]
      refine .finite hsign ?_ h
      rw [magnitude?, hfield, hfraction]
      split_ifs with hspecial hsmall
      · omega
      · rw [Option.some.injEq, Magnitude.mk.injEq]
        omega
      · rw [Option.some.injEq, Magnitude.mk.injEq]
        omega
  | past h hle =>
      obtain ⟨hsign, hfield, hfraction⟩ :=
        fields_withSign negative (show 255 * 2 ^ 23 < 2 ^ 31 by decide)
      exact .infinite hsign hfield hfraction h hle

end

end Single

end TrialView.Number
