import TrialView.Number.Double
import TrialView.Proofs.Number.Rounding

/-!
Powers of ten in double arithmetic, apart from how they are computed. A significand is rounded, and
then multiplied or divided by a rounded power of ten, and each result is rounded again. A power that
is past the range cannot be multiplied by, and is divided by in parts.
-/

namespace TrialView.Number.Double

/-- What is left of `v` divided by `10 ^ k`: the greatest power in range is divided by as often as
the power is beyond it. -/
inductive Divided : ℚ → Nat → ℚ → Prop
  | near {v p w : ℚ} {k : Nat} (hk : k ≤ maxPower) (hp : Format.double.Nearest (10 ^ k) p)
      (hw : Format.double.Nearest (v / p) w) : Divided v k w
  | far {v p u w : ℚ} {k : Nat} (hk : maxPower < k) (hp : Format.double.Nearest (10 ^ maxPower) p)
      (hu : Format.double.Nearest (v / p) u) (h : Divided u (k - maxPower) w) : Divided v k w

/-- What becomes of `n * 10 ^ e`. -/
inductive Scaled (n : Nat) : Int → ℚ → Prop
  | zero {e : Int} (he : 0 ≤ e) (hn : n = 0) : Scaled n e 0
  | up {e : Int} {a p v : ℚ} (he : 0 ≤ e) (hn : n ≠ 0) (hpower : e ≤ maxPower)
      (ha : Format.double.Nearest n a) (hp : Format.double.Nearest (10 ^ e) p)
      (hv : Format.double.Nearest (a * p) v) (hlt : v < 2 ^ Format.double.overflow) : Scaled n e v
  | down {e : Int} {a v : ℚ} (he : e < 0) (ha : Format.double.Nearest n a)
      (h : Divided a e.natAbs v) : Scaled n e v

section

variable {n k : Nat} {e : Int} {q v w : ℚ} {m : Magnitude}

theorem Divided.unique (hv : Divided q k v) (hw : Divided q k w) : v = w := by
  have hbits := Format.regular_double.precision_pos
  induction hv with
  | near hk hp hv =>
      cases hw with
      | near _ hp' hw =>
          obtain rfl := hp.unique hbits hp'
          exact hv.unique hbits hw
      | far hlt => exact absurd hk (not_le.mpr hlt)
  | far hk hp hu _ ih =>
      cases hw with
      | near hle => exact absurd hk (not_lt.mpr hle)
      | far _ hp' hu' hw =>
          obtain rfl := hp.unique hbits hp'
          obtain rfl := hu.unique hbits hu'
          exact ih hw

theorem Scaled.unique (hv : Scaled n e v) (hw : Scaled n e w) : v = w := by
  have hbits := Format.regular_double.precision_pos
  cases hv with
  | zero he hn =>
      cases hw with
      | zero => rfl
      | up _ hn' => exact absurd hn hn'
      | down he' => omega
  | up he hn hpower ha hp hv hlt =>
      cases hw with
      | zero _ hn' => exact absurd hn' hn
      | up _ _ _ ha' hp' hw _ =>
          obtain rfl := ha.unique hbits ha'
          obtain rfl := hp.unique hbits hp'
          exact hv.unique hbits hw
      | down he' => omega
  | down he ha h =>
      cases hw with
      | zero he' => omega
      | up he' => omega
      | down _ ha' h' =>
          obtain rfl := ha.unique hbits ha'
          exact h.unique h'

theorem pow_ten_le {k m e : Nat} (h : 10 ^ k ≤ m * 2 ^ e) : (10 : ℚ) ^ k ≤ m * 2 ^ (e : Int) := by
  rw [zpow_natCast]
  exact_mod_cast h

theorem le_pow_ten {k e : Nat} (h : 2 ^ e ≤ 10 ^ k) : (2 : ℚ) ^ (e : Int) ≤ 10 ^ k := by
  rw [zpow_natCast]
  exact_mod_cast h

/-- There is a double between the greatest power of ten in range and the end of the range. -/
theorem exists_above_maxPower :
    ∃ w, Format.double.Holds w ∧ (10 : ℚ) ^ maxPower ≤ w ∧ w < 2 ^ Format.double.overflow := by
  have hsplit : (2 : ℚ) ^ Format.double.overflow = 16 * 2 ^ (1020 : Int) := by
    have hbits : Format.double.overflow = 4 + 1020 := rfl
    rw [hbits, zpow_add₀ (by norm_num)]
    norm_num
  refine ⟨(9 : Nat) * 2 ^ (1020 : Int), Format.holds_of_lt (by decide) (by decide),
    pow_ten_le (by decide +kernel), ?_⟩
  rw [hsplit]
  gcongr
  norm_num

theorem nearest_powerOfTen (hk : k ≤ maxPower) :
    Format.double.Nearest (10 ^ k) (powerOfTen k).value := by
  obtain ⟨w, hw, hpower, hlt⟩ := exists_above_maxPower
  have hcast : ((Nat.pow 10 k : Nat) : ℚ) = 10 ^ k := by
    rw [Nat.pow_eq]
    push_cast
    rfl
  have hle : (10 : ℚ) ^ k ≤ w := (pow_le_pow_right₀ (by norm_num) hk).trans hpower
  have hround := Magnitude.rounds_ofNat? Format.regular_double (Nat.pow 10 k)
  rw [hcast] at hround
  obtain ⟨r, hr, -, hnearest, -⟩ := hround.exists_inRange hw hle hlt
  rw [powerOfTen, hr]
  exact hnearest

/-- A number of one or more is not rounded below one. -/
theorem one_le_of_nearest {a : ℚ} (hq : 1 ≤ q) (h : Format.double.Nearest q a) : 1 ≤ a := by
  have hone : Format.double.Holds (2 ^ (0 : Int)) := Format.holds_zpow (by decide) (by decide)
  rw [zpow_zero] at hone
  exact h.le_of_ge hone hq

/-- The quotient of a double and a power of ten is a double. -/
theorem quotient_spec (hm : m.Canonical .double) (hlt : m.value < 2 ^ Format.double.overflow)
    (hk : k ≤ maxPower) : (quotient m k).Canonical .double ∧
      Format.double.Nearest (m.value / (powerOfTen k).value) (quotient m k).value ∧
        (quotient m k).value < 2 ^ Format.double.overflow := by
  have hone := one_le_of_nearest (one_le_pow₀ (by norm_num)) (nearest_powerOfTen hk)
  have hround := Magnitude.rounds_div? Format.regular_double m
    (Magnitude.numerator_pos (lt_of_lt_of_le zero_lt_one hone))
  have hle : m.value / (powerOfTen k).value ≤ m.value := div_le_self m.value_nonneg hone
  obtain ⟨r, hr, hcanonical, hnearest, hin⟩ := hround.exists_inRange hm.holds hle hlt
  rw [quotient, hr]
  exact ⟨hcanonical, hnearest, hin⟩

theorem divided_zero (k : Nat) : Divided 0 k 0 := by
  have hzero (p : ℚ) : Format.double.Nearest (0 / p) 0 := by
    rw [zero_div]
    exact (Format.holds_zero _).nearest
  induction k using Nat.strongRecOn with
  | ind k ih =>
      by_cases hk : k ≤ maxPower
      · exact .near hk (nearest_powerOfTen hk) (hzero _)
      · have hpos : 0 < maxPower := by decide
        exact .far (not_le.mp hk) (nearest_powerOfTen (le_refl _)) (hzero _)
          (ih (k - maxPower) (by omega))

/-- The greatest power of ten makes a number less by more than a thousand bits, and so does its
rounding. -/
theorem value_quotient_le {t : Int} (hm : m.Canonical .double)
    (hlt : m.value < 2 ^ Format.double.overflow) (hle : m.value ≤ 2 ^ (t + 1023)) (ht : t ≠ -1075) :
    (quotient m maxPower).value ≤ 2 ^ t := by
  have hpower : (2 : ℚ) ^ (1023 : Int) ≤ (powerOfTen maxPower).value := by
    apply (nearest_powerOfTen (le_refl _)).le_of_ge (Format.holds_zpow (by decide) (by decide))
    exact le_pow_ten (by decide +kernel)
  have hpos : 0 < (powerOfTen maxPower).value := lt_of_lt_of_le (by positivity) hpower
  refine (quotient_spec hm hlt (le_refl _)).2.1.le_zpow (by decide)
    (div_nonneg m.value_nonneg hpos.le) ?_ ht
  rw [div_le_iff₀ hpos]
  calc m.value ≤ 2 ^ (t + 1023) := hle
    _ = 2 ^ t * 2 ^ (1023 : Int) := zpow_add₀ (by norm_num) _ _
    _ ≤ 2 ^ t * (powerOfTen maxPower).value := by gcongr

/-- By induction on the steps: what is left after them is too small to be more than zero. -/
theorem divided_scaleDown {steps : Nat} (hm : m.Canonical .double)
    (hlt : m.value < 2 ^ Format.double.overflow)
    (hle : m.value ≤ 2 ^ (1023 * (steps : Int) - 1076)) :
    Divided m.value k (scaleDown steps m k).value := by
  induction steps generalizing m k with
  | zero =>
      have hzero : m.value = 0 := by
        by_contra hne
        have hleast := (hm.holds.zpow_le hne).trans hle
        exact absurd hleast (not_le.mpr (zpow_lt_zpow_right₀ (by norm_num) (by decide)))
      have hquotient := (quotient_spec hm hlt (Nat.min_le_right k maxPower)).2.1
      rw [hzero, zero_div] at hquotient
      have hnone := hquotient.unique (by decide) (Format.holds_zero _).nearest
      rw [scaleDown, hzero, hnone]
      exact divided_zero k
  | succ steps ih =>
      rw [scaleDown]
      split_ifs with hk
      · exact .near hk (nearest_powerOfTen hk) (quotient_spec hm hlt hk).2.1
      · obtain ⟨hcanonical, hnearest, hin⟩ := quotient_spec hm hlt (le_refl maxPower)
        have hplace : 1023 * ((steps + 1 : Nat) : Int) - 1076 = 1023 * steps - 1076 + 1023 := by
          push_cast
          ring
        rw [hplace] at hle
        exact .far (not_le.mp hk) (nearest_powerOfTen (le_refl _)) hnearest
          (ih hcanonical hin (value_quotient_le hm hlt hle (by omega)))

/-- Significands of sixty-four bits are doubles after rounding, and zero only if they are. -/
theorem exists_rounded (hn : n < 2 ^ 64) : ∃ a, Magnitude.ofNat? .double n = some a ∧
    a.Canonical .double ∧ Format.double.Nearest n a.value ∧
      a.value < 2 ^ Format.double.overflow ∧ (a.isZero = true ↔ n = 0) := by
  have hword : Format.double.Holds (2 ^ (64 : Int)) := Format.holds_zpow (by decide) (by decide)
  have hle : (n : ℚ) ≤ 2 ^ (64 : Int) := by exact_mod_cast hn.le
  obtain ⟨a, ha, hcanonical, hnearest, hin⟩ :=
    (Magnitude.rounds_ofNat? Format.regular_double n).exists_inRange hword hle
      (zpow_lt_zpow_right₀ (by norm_num) (by decide))
  refine ⟨a, ha, hcanonical, hnearest, hin, ?_⟩
  rw [a.isZero_iff]
  constructor
  · intro hzero
    by_contra hne
    have hnat : (1 : ℚ) ≤ n := by exact_mod_cast Nat.one_le_iff_ne_zero.mpr hne
    have hone := one_le_of_nearest hnat hnearest
    rw [hzero] at hone
    exact absurd hone (by norm_num)
  · rintro rfl
    rw [Nat.cast_zero] at hnearest
    exact hnearest.unique (by decide) (Format.holds_zero _).nearest

theorem scaled?_spec (hn : n < 2 ^ 64) :
    (∃ m, scaled? n e = some m ∧ Scaled n e m.value) ∨
      (scaled? n e = none ∧ ∀ v, ¬ Scaled n e v) := by
  obtain ⟨a, ha, hcanonical, hnearest, hin, hzero⟩ := exists_rounded hn
  rw [scaled?, ha, Option.bind_eq_bind, Option.bind_some]
  split_ifs with hneg hnone hpower
  · have hle : a.value ≤ 2 ^ (1023 * ((3 : Nat) : Int) - 1076) :=
      hin.le.trans (zpow_le_zpow_right₀ (by norm_num) (by decide))
    exact .inl ⟨_, rfl, .down hneg hnearest (divided_scaleDown hcanonical hin hle)⟩
  · have hvalue := a.isZero_iff.mp hnone
    exact .inl ⟨a, rfl, hvalue ▸ .zero (not_lt.mp hneg) (hzero.mp hnone)⟩
  · have hne : n ≠ 0 := fun h => hnone (hzero.mpr h)
    obtain ⟨k, rfl⟩ := Int.eq_ofNat_of_zero_le (not_lt.mp hneg)
    rw [Int.toNat_natCast] at hpower ⊢
    have hp : Format.double.Nearest (10 ^ (k : Int)) (powerOfTen k).value := by
      rw [zpow_natCast]
      exact nearest_powerOfTen hpower
    have hround := Magnitude.rounds_mul? Format.regular_double a (powerOfTen k)
    revert hround
    cases a.mul? .double (powerOfTen k) with
    | some r =>
        rintro (⟨-, h, hlt⟩)
        exact .inl ⟨r, rfl, .up (by omega) hne (by omega) hnearest hp h hlt⟩
    | none =>
        rintro (_ | ⟨h, hle⟩)
        refine .inr ⟨rfl, fun v hv => ?_⟩
        cases hv with
        | zero _ hn' => exact hne hn'
        | up _ _ _ ha' hp' hv hlt =>
            obtain rfl := ha'.unique (by decide) hnearest
            obtain rfl := hp'.unique (by decide) hp
            obtain rfl := hv.unique (by decide) h
            exact absurd hlt (not_lt.mpr hle)
        | down he => omega
  · have hne : n ≠ 0 := fun h => hnone (hzero.mpr h)
    refine .inr ⟨rfl, fun v hv => ?_⟩
    cases hv with
    | zero _ hn' => exact hne hn'
    | up _ _ hle => omega
    | down he => omega

/-- Scaling a significand of sixty-four bits finds what becomes of it. -/
theorem scaled?_iff (hn : n < 2 ^ 64) :
    (∃ m, scaled? n e = some m ∧ m.value = v) ↔ Scaled n e v := by
  rcases @scaled?_spec n e hn with ⟨m, hm, hscaled⟩ | ⟨hnone, hnothing⟩
  · rw [hm]
    constructor
    · rintro ⟨_, h, rfl⟩
      obtain rfl := Option.some.inj h
      exact hscaled
    · intro hv
      exact ⟨m, rfl, hscaled.unique hv⟩
  · rw [hnone]
    exact iff_of_false (by simp) (hnothing v)

end

end TrialView.Number.Double
