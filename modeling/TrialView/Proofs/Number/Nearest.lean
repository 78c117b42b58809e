import TrialView.Number.Rounding
import Mathlib.Algebra.Order.Field.Power
import Mathlib.Algebra.Order.Field.Rat
import Mathlib.Tactic.FieldSimp
import Mathlib.Tactic.Linarith
import Mathlib.Tactic.NormNum
import Mathlib.Tactic.Positivity
import Mathlib.Tactic.Ring

/-!
What rounding is, apart from how it is computed. A format holds the values `m * 2 ^ e` whose
significand has no more bits than it allows and whose exponent is not below its least; its range is
another matter. A number is rounded to the value nearest to it, and to the even one if two are
equally near. There is no other such value, and it is the nearest multiple of a last place.
-/

namespace TrialView.Number

section

/-- A multiple of a power of two is one of every smaller power. -/
theorem exists_mul_zpow (m : Nat) {d e : Int} (h : d ≤ e) :
    ∃ k : Nat, (m : ℚ) * 2 ^ e = k * 2 ^ d := by
  obtain ⟨n, rfl⟩ := Int.le.dest h
  refine ⟨m * 2 ^ n, ?_⟩
  rw [zpow_add₀ (by norm_num), zpow_natCast]
  push_cast
  ring

/-- All natural numbers but the one within half a unit are at least half a unit away. -/
theorem half_le_abs_sub {x : ℚ} {k m : Nat} (hm : |x - m| ≤ 1 / 2) (hk : k ≠ m) :
    1 / 2 ≤ |x - k| := by
  have hapart : (1 : ℚ) ≤ |(k : ℚ) - m| := by
    have hint : (1 : Int) ≤ |(k : Int) - m| := Int.one_le_abs (by omega)
    exact_mod_cast hint
  have htriangle := abs_sub_le (k : ℚ) x m
  rw [abs_sub_comm (k : ℚ) x] at htriangle
  linarith

/-- Distances from multiples of a power of two, with the power as the unit. -/
theorem abs_sub_mul_zpow (q : ℚ) (k : Nat) (e : Int) :
    |q - k * 2 ^ e| = |q / 2 ^ e - k| * 2 ^ e := by
  have hplace : (0 : ℚ) < 2 ^ e := by positivity
  rw [← abs_of_pos hplace, ← abs_mul, abs_of_pos hplace]
  congr 1
  field_simp

/-- Between two points that are equally far away everything is nearer. -/
theorem abs_sub_lt_of_between {q u v w : ℚ} (h : |q - v| = |q - w|) (hvu : v < u) (huw : u < w) :
    |q - u| < |q - v| := by
  rcases abs_eq_abs.mp h with heq | hmiddle
  · linarith
  · rw [abs_of_pos (by linarith : 0 < q - v), abs_lt]
    constructor <;> linarith

end

namespace Format

/-- A format in which rounding is what it should be: two bits at least, and a range above the least
numbers. -/
structure Regular (f : Format) : Prop where
  precision : 2 ≤ f.precision
  range : f.minExponent + f.precision ≤ f.overflow

theorem Regular.precision_pos {f : Format} (hf : f.Regular) : 0 < f.precision :=
  Nat.lt_of_lt_of_le Nat.zero_lt_two hf.precision

theorem regular_single : single.Regular := ⟨by decide, by decide⟩

theorem regular_double : double.Regular := ⟨by decide, by decide⟩

/-- The values of a format, were it not for its range. -/
def Holds (f : Format) (v : ℚ) : Prop :=
  ∃ (m : Nat) (e : Int), m < 2 ^ f.precision ∧ f.minExponent ≤ e ∧ v = m * 2 ^ e

/-- The format without the last bit. -/
def coarser (f : Format) : Format := ⟨f.precision - 1, f.minExponent + 1, f.overflow⟩

/-- The values whose last bit is not set: the format holds them without it. -/
def Even (f : Format) (v : ℚ) : Prop := f.coarser.Holds v

/-- Of all values of the format `v` is nearest to `q`, and even if another one is as near. -/
structure Nearest (f : Format) (q v : ℚ) : Prop where
  holds : f.Holds v
  le : ∀ w, f.Holds w → |q - v| ≤ |q - w|
  even : ∀ w, f.Holds w → w ≠ v → |q - w| = |q - v| → f.Even v

section

variable {f : Format} {q v w : ℚ} {e : Int} {m : Nat}

theorem two_pow_precision (hp : 0 < f.precision) :
    2 ^ f.precision = 2 * 2 ^ (f.precision - 1) := by
  rw [← Nat.pow_succ', Nat.succ_eq_add_one, Nat.sub_add_cancel hp]

theorem holds_of_lt (hm : m < 2 ^ f.precision) (he : f.minExponent ≤ e) : f.Holds (m * 2 ^ e) :=
  ⟨m, e, hm, he, rfl⟩

/-- A significand with one bit too many is a power of two. -/
theorem holds_of_le (hp : 0 < f.precision) (hm : m ≤ 2 ^ f.precision) (he : f.minExponent ≤ e) :
    f.Holds (m * 2 ^ e) := by
  rcases Nat.lt_or_eq_of_le hm with hlt | rfl
  · exact holds_of_lt hlt he
  · refine ⟨1, e + f.precision, Nat.one_lt_two_pow hp.ne', by omega, ?_⟩
    rw [zpow_add₀ (by norm_num), zpow_natCast]
    push_cast
    ring

theorem holds_zero (f : Format) : f.Holds 0 :=
  ⟨0, f.minExponent, Nat.two_pow_pos _, Int.le_refl _, by simp⟩

theorem holds_zpow (hp : 0 < f.precision) (he : f.minExponent ≤ e) : f.Holds (2 ^ e) := by
  have h := holds_of_lt (Nat.one_lt_two_pow hp.ne') he
  rwa [Nat.cast_one, one_mul] at h

theorem Holds.nonneg (h : f.Holds v) : 0 ≤ v := by
  obtain ⟨m, e, -, -, rfl⟩ := h
  positivity

/-- The least value that is not zero. -/
theorem Holds.zpow_le (h : f.Holds v) (hv : v ≠ 0) : 2 ^ f.minExponent ≤ v := by
  obtain ⟨m, e, -, he, rfl⟩ := h
  have hm : m ≠ 0 := by
    rintro rfl
    simp at hv
  have hone : (1 : ℚ) ≤ m := by exact_mod_cast Nat.one_le_iff_ne_zero.mpr hm
  calc (2 : ℚ) ^ f.minExponent ≤ 2 ^ e := zpow_le_zpow_right₀ (by norm_num) he
    _ ≤ m * 2 ^ e := le_mul_of_one_le_left (by positivity) hone

/-- Two even values are not neighbours: the one with the smaller exponent has an odd neighbour on
the way to the other. -/
theorem Even.exists_between (hp : 0 < f.precision) (hv : f.Even v) (hw : f.Even w) (h : v < w) :
    ∃ u, f.Holds u ∧ v < u ∧ u < w := by
  obtain ⟨m, e, hm, he, rfl⟩ := hv
  obtain ⟨n, d, hn, hd, rfl⟩ := hw
  have hbits := two_pow_precision hp
  have hstep (k : Int) : (2 : ℚ) ^ k = 2 * 2 ^ (k - 1) := by
    rw [zpow_sub_one₀ (by norm_num)]
    ring
  dsimp only [coarser] at hm hn he hd
  rcases Int.le_total e d with hed | hde
  · obtain ⟨k, hk⟩ := exists_mul_zpow n hed
    rw [hk, mul_lt_mul_iff_left₀ (by positivity)] at h
    have hnext : (m : ℚ) + 1 ≤ k := by exact_mod_cast h
    refine ⟨(2 * m + 1 : Nat) * 2 ^ (e - 1), holds_of_lt (by omega) (by omega), ?_, ?_⟩
    · rw [hstep e]
      push_cast
      nlinarith [show (0 : ℚ) < 2 ^ (e - 1) by positivity]
    · rw [hk, hstep e]
      push_cast
      nlinarith [show (0 : ℚ) < 2 ^ (e - 1) by positivity]
  · obtain ⟨k, hk⟩ := exists_mul_zpow m hde
    rw [hk, mul_lt_mul_iff_left₀ (by positivity)] at h
    have hnext : (k : ℚ) + 1 ≤ n := by exact_mod_cast h
    have hpos : 0 < n := by
      have hk := Nat.zero_le k
      have hkn : k < n := by exact_mod_cast h
      omega
    have hodd : ((2 * n - 1 : Nat) : ℚ) = 2 * n - 1 := by
      rw [Nat.cast_sub (by omega)]
      push_cast
      ring
    refine ⟨(2 * n - 1 : Nat) * 2 ^ (d - 1), holds_of_lt (by omega) (by omega), ?_, ?_⟩
    · rw [hk, hstep d, hodd]
      nlinarith [show (0 : ℚ) < 2 ^ (d - 1) by positivity]
    · rw [hstep d, hodd]
      nlinarith [show (0 : ℚ) < 2 ^ (d - 1) by positivity]

/-- A number is rounded to one value only. -/
theorem Nearest.unique (hp : 0 < f.precision) (hv : f.Nearest q v) (hw : f.Nearest q w) :
    v = w := by
  by_contra hne
  have hsame : |q - v| = |q - w| := le_antisymm (hv.le w hw.holds) (hw.le v hv.holds)
  have hevenv := hv.even w hw.holds (Ne.symm hne) hsame.symm
  have hevenw := hw.even v hv.holds hne hsame
  rcases lt_or_gt_of_ne hne with hlt | hlt
  · obtain ⟨u, hu, hvu, huw⟩ := hevenv.exists_between hp hevenw hlt
    exact absurd (hv.le u hu) (not_le.mpr (abs_sub_lt_of_between hsame hvu huw))
  · obtain ⟨u, hu, hwu, huv⟩ := hevenw.exists_between hp hevenv hlt
    exact absurd (hw.le u hu) (not_le.mpr (abs_sub_lt_of_between hsame.symm hwu huv))

/-- A value of the format is its own rounding. -/
theorem Holds.nearest (h : f.Holds v) : f.Nearest v v where
  holds := h
  le w _ := by
    rw [sub_self, abs_zero]
    exact abs_nonneg _
  even w _ hne hsame := by
    rw [sub_self, abs_zero, abs_eq_zero, sub_eq_zero] at hsame
    exact absurd hsame.symm hne

/-- Rounding does not pass a value of the format. -/
theorem Nearest.le_of_le (h : f.Nearest q v) (hw : f.Holds w) (hq : q ≤ w) : v ≤ w := by
  by_contra hlt
  rw [not_le] at hlt
  have hle := h.le w hw
  rw [abs_of_nonpos (by linarith), abs_of_nonpos (by linarith)] at hle
  linarith

theorem Nearest.le_of_ge (h : f.Nearest q v) (hw : f.Holds w) (hq : w ≤ q) : w ≤ v := by
  by_contra hlt
  rw [not_le] at hlt
  have hle := h.le w hw
  rw [abs_of_nonneg (by linarith), abs_of_nonneg (by linarith)] at hle
  linarith

/-- Less than half of the least value is rounded to zero. -/
theorem Nearest.eq_zero (h : f.Nearest q v) (hq : 0 ≤ q) (hsmall : 2 * q < 2 ^ f.minExponent) :
    v = 0 := by
  by_contra hv
  have hleast := h.holds.zpow_le hv
  have hle := h.le 0 f.holds_zero
  rw [sub_zero, abs_of_nonneg hq, abs_of_nonpos (by linarith)] at hle
  linarith

/-- Rounding does not pass a power of two, not even one that the format does not hold. -/
theorem Nearest.le_zpow (hp : 0 < f.precision) (h : f.Nearest q v) (hq : 0 ≤ q) (hle : q ≤ 2 ^ e)
    (he : e ≠ f.minExponent - 1) : v ≤ 2 ^ e := by
  by_cases hleast : f.minExponent ≤ e
  · exact h.le_of_le (holds_zpow hp hleast) hle
  · have hhalf : 2 * q ≤ 2 ^ (e + 1) := by
      rw [zpow_add_one₀ (by norm_num)]
      linarith
    have hsmall : (2 : ℚ) ^ (e + 1) < 2 ^ f.minExponent :=
      zpow_lt_zpow_right₀ (by norm_num) (by omega)
    rw [h.eq_zero hq (hhalf.trans_lt hsmall)]
    positivity

/-- A value of an even significand is even. -/
theorem even_of_even_significand (hp : 2 ≤ f.precision) (hm : m ≤ 2 ^ f.precision)
    (heven : m % 2 = 0) (he : f.minExponent ≤ e) : f.Even (m * 2 ^ e) := by
  obtain ⟨j, rfl⟩ : ∃ j, m = 2 * j := ⟨m / 2, by omega⟩
  have hvalue : ((2 * j : Nat) : ℚ) * 2 ^ e = j * 2 ^ (e + 1) := by
    rw [zpow_add_one₀ (by norm_num)]
    push_cast
    ring
  have hbits := two_pow_precision (Nat.zero_lt_of_lt hp)
  rw [hvalue]
  exact holds_of_le (f := f.coarser) (Nat.sub_pos_of_lt hp)
    (show j ≤ 2 ^ (f.precision - 1) by omega) (show f.minExponent + 1 ≤ e + 1 by omega)

/-- The place `e` of the last bit that rounding keeps of `q`: there are no bits too many in front of
it, and none too few unless `e` is the least exponent. -/
structure LastPlace (f : Format) (q : ℚ) (e : Int) : Prop where
  least : f.minExponent ≤ e
  lt : q < 2 ^ (e + f.precision)
  le : f.minExponent < e → 2 ^ (e + f.precision - 1) ≤ q

/-- A value of the format is a multiple of the last place, or there is one between it and `q`. -/
theorem LastPlace.grid_or_far (hp : 0 < f.precision) (h : f.LastPlace q e) (hw : f.Holds w) :
    (∃ k : Nat, w = k * 2 ^ e) ∨ ∃ k : Nat, w < k * 2 ^ e ∧ k * 2 ^ e ≤ q := by
  obtain ⟨n, d, hn, hd, rfl⟩ := hw
  by_cases hed : e ≤ d
  · exact .inl (exists_mul_zpow n hed)
  · have hsplit : ((2 ^ (f.precision - 1) : Nat) : ℚ) * 2 ^ e = 2 ^ (e + f.precision - 1) := by
      push_cast
      rw [← zpow_natCast, ← zpow_add₀ (by norm_num)]
      congr 1
      omega
    refine .inr ⟨2 ^ (f.precision - 1), ?_, ?_⟩
    · have hn' : (n : ℚ) < 2 ^ f.precision := by exact_mod_cast hn
      calc (n : ℚ) * 2 ^ d < 2 ^ f.precision * 2 ^ d := by gcongr
        _ = 2 ^ (f.precision + d) := by rw [zpow_add₀ (by norm_num), zpow_natCast]
        _ ≤ 2 ^ (e + f.precision - 1) := zpow_le_zpow_right₀ (by norm_num) (by omega)
        _ = _ := hsplit.symm
    · rw [hsplit]
      exact h.le (by omega)

/-- Of the multiples of the last place the nearest has no more bits than the format allows. -/
theorem LastPlace.le_of_near (h : f.LastPlace q e) (hnear : |q / 2 ^ e - m| ≤ 1 / 2) :
    m ≤ 2 ^ f.precision := by
  have hq : q / 2 ^ e < 2 ^ f.precision := by
    rw [div_lt_iff₀ (by positivity), ← zpow_natCast, ← zpow_add₀ (by norm_num), add_comm]
    exact h.lt
  have hm : (m : ℚ) < (2 ^ f.precision : Nat) + 1 := by
    have hlow := (abs_le.mp hnear).1
    push_cast
    linarith
  exact Nat.lt_succ_iff.mp (by exact_mod_cast hm)

/-- And it has no fewer bits, unless the exponent can be no less. -/
theorem LastPlace.ge_of_near (hp : 0 < f.precision) (h : f.LastPlace q e)
    (hnear : |q / 2 ^ e - m| ≤ 1 / 2) (he : f.minExponent < e) : 2 ^ (f.precision - 1) ≤ m := by
  have hq : ((2 ^ (f.precision - 1) : Nat) : ℚ) ≤ q / 2 ^ e := by
    push_cast
    rw [le_div_iff₀ (by positivity), ← zpow_natCast, ← zpow_add₀ (by norm_num)]
    refine le_trans (le_of_eq ?_) (h.le he)
    congr 1
    omega
  have hm : ((2 ^ (f.precision - 1) : Nat) : ℚ) < m + 1 := by
    have hhigh := (abs_le.mp hnear).2
    linarith
  exact Nat.lt_succ_iff.mp (by exact_mod_cast hm)

/-- The nearest multiple of the last place is the nearest value of the format. -/
theorem LastPlace.nearest (hp : 2 ≤ f.precision) (h : f.LastPlace q e)
    (hnear : |q / 2 ^ e - m| ≤ 1 / 2) (heven : |q / 2 ^ e - m| = 1 / 2 → m % 2 = 0) :
    f.Nearest q (m * 2 ^ e) := by
  have hplace : (0 : ℚ) < 2 ^ e := by positivity
  have hbits := h.le_of_near hnear
  have hgrid (k : Nat) : |q - m * 2 ^ e| ≤ |q - k * 2 ^ e| := by
    rw [abs_sub_mul_zpow, abs_sub_mul_zpow]
    by_cases hk : k = m
    · rw [hk]
    · exact mul_le_mul_of_nonneg_right (hnear.trans (half_le_abs_sub hnear hk)) hplace.le
  have hfar {w : ℚ} (hw : ∃ k : Nat, w < k * 2 ^ e ∧ k * 2 ^ e ≤ q) :
      |q - m * 2 ^ e| < |q - w| := by
    obtain ⟨k, hwk, hkq⟩ := hw
    refine lt_of_le_of_lt (hgrid k) ?_
    rw [abs_of_nonneg (by linarith), abs_of_pos (by linarith)]
    linarith
  refine ⟨holds_of_le (by omega) hbits h.least, fun w hw => ?_, fun w hw hne hsame => ?_⟩
  · rcases h.grid_or_far (by omega) hw with ⟨k, rfl⟩ | hw
    · exact hgrid k
    · exact (hfar hw).le
  · rcases h.grid_or_far (by omega) hw with ⟨k, rfl⟩ | hw
    · have hk : k ≠ m := by
        rintro rfl
        exact hne rfl
      rw [abs_sub_mul_zpow, abs_sub_mul_zpow, mul_left_inj' hplace.ne'] at hsame
      have hzero := heven (le_antisymm hnear (hsame ▸ half_le_abs_sub hnear hk))
      exact even_of_even_significand hp hbits hzero h.least
    · exact absurd hsame (hfar hw).ne'

/-- A value is never further away than half of the last place. -/
theorem LastPlace.abs_sub_le (hp : 0 < f.precision) (h : f.LastPlace q e)
    (hnear : |q / 2 ^ e - m| ≤ 1 / 2) (hv : f.Nearest q v) : |q - v| ≤ 2 ^ e / 2 := by
  have hle := hv.le _ (holds_of_le hp (h.le_of_near hnear) h.least)
  rw [abs_sub_mul_zpow] at hle
  have hhalf := mul_le_mul_of_nonneg_right hnear (show (0 : ℚ) ≤ 2 ^ e by positivity)
  linarith

end

end Format

end TrialView.Number
