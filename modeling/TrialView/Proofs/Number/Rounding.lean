import TrialView.Proofs.Number.Nearest

/-!
How rounding is computed. The quotient of two natural numbers is scaled to a power of two that its
leading bit gives, and divided there; what remains is put in the one way in which the format writes
it. So `round?` finds the nearest value, or finds that it is past the range of the format.
-/

namespace TrialView.Number

section

theorem zpow_eq_div (e : Int) : (2 : ℚ) ^ e = 2 ^ e.toNat / 2 ^ (-e).toNat := by
  rcases Int.le_total 0 e with he | he
  · obtain ⟨n, rfl⟩ := Int.eq_ofNat_of_zero_le he
    simp
  · obtain ⟨n, hn⟩ := Int.eq_ofNat_of_zero_le (Int.neg_nonneg_of_nonpos he)
    obtain rfl : e = -(n : Int) := by omega
    simp

/-- A quotient is not below the power of two that is found for it. -/
theorem zpow_log2Quotient_le {num den : Nat} (hnum : 0 < num) (hden : 0 < den) :
    (2 : ℚ) ^ log2Quotient num den ≤ num / den := by
  have hden' : (0 : ℚ) < den := by exact_mod_cast hden
  rw [log2Quotient]
  generalize hk : (num.log2 : Int) - (den.log2 : Int) = k
  split_ifs with hlt
  · have hlow : (2 : ℚ) ^ (num.log2 : Int) ≤ num := by
      exact_mod_cast Nat.log2_self_le hnum.ne'
    have hhigh : (den : ℚ) ≤ 2 ^ ((den.log2 : Int) + 1) := by
      exact_mod_cast Nat.lt_log2_self.le
    rw [le_div_iff₀ hden']
    calc (2 : ℚ) ^ (k - 1) * den ≤ 2 ^ (k - 1) * 2 ^ ((den.log2 : Int) + 1) := by gcongr
      _ = 2 ^ (num.log2 : Int) := by
          rw [← zpow_add₀ (by norm_num)]
          congr 1
          omega
      _ ≤ num := hlow
  · rw [zpow_eq_div, div_le_div_iff₀ (by positivity) hden', mul_comm]
    exact_mod_cast Nat.not_lt.mp hlt

/-- A quotient is below the next power of two. -/
theorem lt_zpow_log2Quotient {num den : Nat} (hden : 0 < den) :
    (num : ℚ) / den < 2 ^ (log2Quotient num den + 1) := by
  have hden' : (0 : ℚ) < den := by exact_mod_cast hden
  rw [log2Quotient]
  generalize hk : (num.log2 : Int) - (den.log2 : Int) = k
  split_ifs with hlt
  · rw [Int.sub_add_cancel, zpow_eq_div, div_lt_div_iff₀ hden' (by positivity),
      mul_comm _ (den : ℚ)]
    exact_mod_cast hlt
  · have hlow : (2 : ℚ) ^ (den.log2 : Int) ≤ den := by
      exact_mod_cast Nat.log2_self_le hden.ne'
    have hhigh : (num : ℚ) < 2 ^ ((num.log2 : Int) + 1) := by
      exact_mod_cast Nat.lt_log2_self
    rw [div_lt_iff₀ hden']
    calc (num : ℚ) < 2 ^ ((num.log2 : Int) + 1) := hhigh
      _ = 2 ^ (k + 1) * 2 ^ (den.log2 : Int) := by
          rw [← zpow_add₀ (by norm_num)]
          congr 1
          omega
      _ ≤ 2 ^ (k + 1) * den := by gcongr

/-- Half a unit at most is lost, and exactly half a unit only by an even result. -/
theorem roundDivEven_near (num : Nat) {den : Nat} (hden : 0 < den) :
    |(num : ℚ) / den - roundDivEven num den| ≤ 1 / 2 ∧
      (|(num : ℚ) / den - roundDivEven num den| = 1 / 2 → roundDivEven num den % 2 = 0) := by
  have hdiv := Nat.div_add_mod num den
  have hmod := Nat.mod_lt num hden
  have hnext : (num / den + 1) * den = num / den * den + den := Nat.succ_mul _ _
  obtain ⟨hhigh, hlow, heven⟩ : 2 * (roundDivEven num den * den) ≤ 2 * num + den ∧
      2 * num ≤ 2 * (roundDivEven num den * den) + den ∧
        (2 * (roundDivEven num den * den) = 2 * num + den ∨
          2 * num = 2 * (roundDivEven num den * den) + den → roundDivEven num den % 2 = 0) := by
    rw [Nat.mul_comm] at hdiv
    unfold roundDivEven
    dsimp only
    split_ifs <;> omega
  generalize roundDivEven num den = m at hhigh hlow heven ⊢
  have hden' : (0 : ℚ) < den := by exact_mod_cast hden
  have hscaled : ((num : ℚ) / den - m) * (2 * den) = 2 * num - 2 * (m * den) := by
    field_simp
  have hhigh' : 2 * ((m : ℚ) * den) ≤ 2 * num + den := by exact_mod_cast hhigh
  have hlow' : 2 * (num : ℚ) ≤ 2 * (m * den) + den := by exact_mod_cast hlow
  refine ⟨abs_le.mpr ⟨?_, ?_⟩, fun hhalf => heven ?_⟩
  · nlinarith
  · nlinarith
  · rcases (abs_eq (by norm_num)).mp hhalf with h | h
    · right
      rw [h] at hscaled
      have hsame : 2 * (num : ℚ) = 2 * (m * den) + den := by linarith
      exact_mod_cast hsame
    · left
      rw [h] at hscaled
      have hsame : 2 * ((m : ℚ) * den) = 2 * num + den := by linarith
      exact_mod_cast hsame

end

namespace Magnitude

def value (m : Magnitude) : ℚ := m.significand * 2 ^ m.exponent

theorem value_mul_denominator (m : Magnitude) : m.value * m.denominator = m.numerator := by
  rw [numerator, denominator, value, zpow_eq_div, Nat.pow_eq, Nat.pow_eq]
  push_cast
  field_simp

theorem value_nonneg (m : Magnitude) : 0 ≤ m.value := by
  unfold value
  positivity

theorem denominator_pos (m : Magnitude) : 0 < m.denominator :=
  Nat.pow_pos (by decide)

theorem numerator_pos {m : Magnitude} (h : 0 < m.value) : 0 < m.numerator := by
  have hden : (0 : ℚ) < m.denominator := by exact_mod_cast m.denominator_pos
  have hpos := mul_pos h hden
  rw [value_mul_denominator] at hpos
  exact_mod_cast hpos

theorem isZero_iff (m : Magnitude) : m.isZero = true ↔ m.value = 0 := by
  have hpower : (2 : ℚ) ^ m.exponent ≠ 0 := by positivity
  simp [isZero, value, hpower]

/-- The one way in which a format writes a value: with as many bits as it has, unless the exponent
can be no less. -/
structure Canonical (f : Format) (r : Magnitude) : Prop where
  least : f.minExponent ≤ r.exponent
  lt : r.significand < 2 ^ f.precision
  le : f.minExponent < r.exponent → 2 ^ (f.precision - 1) ≤ r.significand

section

variable {f : Format} {q : ℚ} {r s : Magnitude} {num den : Nat} {e : Int}

theorem Canonical.value_lt (h : r.Canonical f) : r.value < 2 ^ (r.exponent + f.precision) := by
  have hbits : (r.significand : ℚ) < 2 ^ f.precision := by exact_mod_cast h.lt
  rw [add_comm, zpow_add₀ (by norm_num), zpow_natCast, value]
  gcongr

theorem Canonical.le_value (hp : 0 < f.precision) (h : r.Canonical f)
    (he : f.minExponent < r.exponent) : 2 ^ (r.exponent + f.precision - 1) ≤ r.value := by
  have hbits : (2 : ℚ) ^ (f.precision - 1) ≤ r.significand := by exact_mod_cast h.le he
  have hsplit : r.exponent + f.precision - 1 = (f.precision - 1 : Nat) + r.exponent := by omega
  rw [hsplit, zpow_add₀ (by norm_num), zpow_natCast, value]
  gcongr

theorem Canonical.holds (h : r.Canonical f) : f.Holds r.value :=
  Format.holds_of_lt h.lt h.least

/-- The exponents are the same, since neither value has bits in front of those of the other. -/
theorem Canonical.eq_of_value_eq (hp : 0 < f.precision) (hr : r.Canonical f) (hs : s.Canonical f)
    (h : r.value = s.value) : r = s := by
  have hexponent {a b : Magnitude} (ha : a.Canonical f) (hb : b.Canonical f)
      (hab : a.value = b.value) : b.exponent ≤ a.exponent := by
    by_contra hlt
    have hleast := ha.least
    have hlow := hb.le_value hp (by omega)
    have hle : (2 : ℚ) ^ (a.exponent + f.precision) ≤ 2 ^ (b.exponent + f.precision - 1) :=
      zpow_le_zpow_right₀ (by norm_num) (by omega)
    exact absurd (hab ▸ ha.value_lt) (not_lt.mpr (hle.trans hlow))
  have hsame := le_antisymm (hexponent hs hr h.symm) (hexponent hr hs h)
  obtain ⟨m, e⟩ := r
  obtain ⟨n, d⟩ := s
  obtain rfl : e = d := hsame
  rw [value, value, mul_left_inj' (by positivity)] at h
  obtain rfl : m = n := by exact_mod_cast h
  rfl

/-- A value is past the range of a format exactly if its exponent is. -/
theorem Canonical.overflow_iff (hf : f.Regular) (h : r.Canonical f) :
    f.overflow < r.exponent + f.precision ↔ 2 ^ f.overflow ≤ r.value := by
  have hp := hf.precision
  have hrange := hf.range
  constructor
  · intro hover
    refine le_trans ?_ (h.le_value (by omega) (by omega))
    exact zpow_le_zpow_right₀ (by norm_num) (by omega)
  · intro hover
    by_contra hfits
    have hle : (2 : ℚ) ^ (r.exponent + f.precision) ≤ 2 ^ f.overflow :=
      zpow_le_zpow_right₀ (by norm_num) (by omega)
    exact absurd (h.value_lt.trans_le hle) (not_lt.mpr hover)

theorem lastPlace_log2Quotient (hnum : 0 < num) (hden : 0 < den)
    (he : e = max f.minExponent (log2Quotient num den - (f.precision - 1))) :
    f.LastPlace (num / den) e where
  least := by omega
  lt := lt_of_lt_of_le (lt_zpow_log2Quotient hden) (zpow_le_zpow_right₀ (by norm_num) (by omega))
  le hlt := by
    have hbits : e + f.precision - 1 = log2Quotient num den := by omega
    rw [hbits]
    exact zpow_log2Quotient_le hnum hden

/-- The quotient that is rounded to a natural number, for the last bit at `e`. -/
theorem scaled_quotient (num den : Nat) (e : Int) :
    ((num * Nat.pow 2 (-e).toNat : Nat) : ℚ) / (den * Nat.pow 2 e.toNat : Nat) =
      num / den / 2 ^ e := by
  rw [zpow_eq_div, Nat.pow_eq, Nat.pow_eq]
  push_cast
  field_simp

/-- Rounding finds the nearest value, or that it is past the range of the format. -/
theorem round?_spec (hf : f.Regular) (num : Nat) (hden : 0 < den) : ∃ r : Magnitude,
    r.Canonical f ∧ f.Nearest (num / den) r.value ∧
      round? f num den = if f.overflow < r.exponent + f.precision then none else some r := by
  have hp := hf.precision
  have hrange := hf.range
  rcases Nat.eq_zero_or_pos num with rfl | hnum
  · refine ⟨⟨0, f.minExponent⟩, ⟨Int.le_refl _, Nat.two_pow_pos _, fun h => absurd h (lt_irrefl _)⟩,
      ?_, ?_⟩
    · simpa [value] using f.holds_zero.nearest
    · rw [round?, if_pos rfl, if_neg (by dsimp only; omega)]
  · obtain ⟨e, he⟩ : ∃ e, e = max f.minExponent (log2Quotient num den - (f.precision - 1)) :=
      ⟨_, rfl⟩
    obtain ⟨m, hm⟩ :
        ∃ m, m = roundDivEven (num * Nat.pow 2 (-e).toNat) (den * Nat.pow 2 e.toNat) := ⟨_, rfl⟩
    have hplace : f.LastPlace (num / den) e := lastPlace_log2Quotient hnum hden he
    have hpos : 0 < den * Nat.pow 2 e.toNat := Nat.mul_pos hden (Nat.pow_pos (by decide))
    obtain ⟨hnear, heven⟩ := roundDivEven_near (num * Nat.pow 2 (-e).toNat) hpos
    rw [scaled_quotient, ← hm] at hnear heven
    have hnearest := hplace.nearest hp hnear heven
    rw [round?, if_neg hnum.ne', ← he]
    dsimp only
    rw [← hm]
    by_cases hfits : m < Nat.pow 2 f.precision
    · rw [if_pos hfits]
      exact ⟨⟨m, e⟩, ⟨hplace.least, hfits, hplace.ge_of_near (by omega) hnear⟩, hnearest, rfl⟩
    · rw [if_neg hfits]
      refine ⟨⟨2 ^ (f.precision - 1), e + 1⟩, ⟨?_, ?_, fun _ => Nat.le_refl _⟩, ?_, rfl⟩
      · have hleast := hplace.least
        dsimp only
        omega
      · exact Nat.pow_lt_pow_right (by decide) (by omega)
      · have hfull : m = 2 ^ f.precision := le_antisymm (hplace.le_of_near hnear) (not_lt.mp hfits)
        have hcarry : (⟨2 ^ (f.precision - 1), e + 1⟩ : Magnitude).value = m * 2 ^ e := by
          rw [hfull, Format.two_pow_precision hf.precision_pos, value, zpow_add_one₀ (by norm_num)]
          push_cast
          ring
        rw [hcarry]
        exact hnearest

/-- What rounding to a format makes of a number: the nearest value, or nothing if that is past the
range. -/
inductive Rounds (f : Format) (q : ℚ) : Option Magnitude → Prop
  | inRange {r : Magnitude} (hr : r.Canonical f) (h : f.Nearest q r.value)
      (hlt : r.value < 2 ^ f.overflow) : Rounds f q (some r)
  | past {v : ℚ} (h : f.Nearest q v) (hle : 2 ^ f.overflow ≤ v) : Rounds f q none

theorem rounds_round? (hf : f.Regular) (hden : 0 < den) (hq : (num : ℚ) / den = q) :
    Rounds f q (round? f num den) := by
  obtain ⟨r, hr, hnearest, hround⟩ := round?_spec hf num hden
  rw [hq] at hnearest
  rw [hround]
  split_ifs with hover
  · exact .past hnearest ((hr.overflow_iff hf).mp hover)
  · exact .inRange hr hnearest (not_le.mp fun hle => hover ((hr.overflow_iff hf).mpr hle))

/-- What is not above some value in range is rounded to one in range. -/
theorem Rounds.exists_inRange {w : ℚ} {r? : Option Magnitude} (h : Rounds f q r?) (hw : f.Holds w)
    (hq : q ≤ w) (hlt : w < 2 ^ f.overflow) :
    ∃ r, r? = some r ∧ r.Canonical f ∧ f.Nearest q r.value ∧ r.value < 2 ^ f.overflow := by
  cases h with
  | @inRange r hr h hin => exact ⟨r, rfl, hr, h, hin⟩
  | past h hle => exact absurd ((hle.trans (h.le_of_le hw hq)).trans_lt hlt) (lt_irrefl _)

theorem numerator_div_denominator (m : Magnitude) :
    (m.numerator : ℚ) / m.denominator = m.value := by
  have hden : (m.denominator : ℚ) ≠ 0 := by exact_mod_cast m.denominator_pos.ne'
  rw [div_eq_iff hden, value_mul_denominator]

theorem rounds_ofNat? (hf : f.Regular) (n : Nat) : Rounds f n (ofNat? f n) :=
  rounds_round? hf Nat.one_pos (by rw [Nat.cast_one, div_one])

theorem rounds_convert? (hf : f.Regular) (a : Magnitude) : Rounds f a.value (a.convert? f) :=
  rounds_round? hf a.denominator_pos a.numerator_div_denominator

theorem rounds_mul? (hf : f.Regular) (a b : Magnitude) :
    Rounds f (a.value * b.value) (a.mul? f b) := by
  apply rounds_round? hf (Nat.mul_pos a.denominator_pos b.denominator_pos)
  rw [← numerator_div_denominator, ← numerator_div_denominator]
  push_cast
  exact (div_mul_div_comm _ _ _ _).symm

theorem rounds_div? (hf : f.Regular) (a : Magnitude) {b : Magnitude} (hb : 0 < b.numerator) :
    Rounds f (a.value / b.value) (a.div? f b) := by
  apply rounds_round? hf (Nat.mul_pos a.denominator_pos hb)
  rw [← numerator_div_denominator, ← numerator_div_denominator]
  push_cast
  exact (div_div_div_eq _ _ _ _).symm

end

end Magnitude

namespace Format

section

variable {f : Format} {q v : ℚ}

theorem exists_quotient (hq : 0 ≤ q) : ∃ num den : Nat, 0 < den ∧ (num : ℚ) / den = q := by
  refine ⟨q.num.toNat, q.den, q.den_pos, ?_⟩
  have hnum : ((q.num.toNat : Nat) : ℚ) = q.num := by
    exact_mod_cast Int.toNat_of_nonneg (Rat.num_nonneg.mpr hq)
  rw [hnum, Rat.num_div_den]

/-- Every number is rounded to something. -/
theorem exists_nearest (hf : f.Regular) (hq : 0 ≤ q) : ∃ v, f.Nearest q v := by
  obtain ⟨num, den, hden, rfl⟩ := exists_quotient hq
  obtain ⟨r, -, hnearest, -⟩ := Magnitude.round?_spec hf num hden
  exact ⟨r.value, hnearest⟩

/-- Unless it is very small, a number is changed by one part in `2 ^ precision` at most. -/
theorem Nearest.abs_sub_le (hf : f.Regular) (h : f.Nearest q v)
    (hq : 2 ^ (f.minExponent + f.precision - 1) ≤ q) : |q - v| ≤ q / 2 ^ f.precision := by
  have hpos : 0 < q := lt_of_lt_of_le (by positivity) hq
  obtain ⟨num, den, hden, rfl⟩ := exists_quotient hpos.le
  have hnum : 0 < num := by
    rcases Nat.eq_zero_or_pos num with rfl | hnum
    · simp at hpos
    · exact hnum
  obtain ⟨e, he⟩ : ∃ e, e = max f.minExponent (log2Quotient num den - (f.precision - 1)) :=
    ⟨_, rfl⟩
  have hplace : f.LastPlace (num / den) e := Magnitude.lastPlace_log2Quotient hnum hden he
  have hunit : 0 < den * Nat.pow 2 e.toNat := Nat.mul_pos hden (Nat.pow_pos (by decide))
  have hnear := (roundDivEven_near (num * Nat.pow 2 (-e).toNat) hunit).1
  rw [Magnitude.scaled_quotient] at hnear
  have hlow : (2 : ℚ) ^ (e + f.precision - 1) ≤ num / den := by
    by_cases hleast : f.minExponent < e
    · exact hplace.le hleast
    · obtain rfl : f.minExponent = e := le_antisymm hplace.least (not_lt.mp hleast)
      exact hq
  have hsplit : (2 : ℚ) ^ (e + f.precision - 1) = 2 ^ e / 2 * 2 ^ f.precision := by
    rw [zpow_sub_one₀ (by norm_num), zpow_add₀ (by norm_num), zpow_natCast]
    ring
  refine (hplace.abs_sub_le hf.precision_pos hnear h).trans ?_
  rw [le_div_iff₀ (by positivity), ← hsplit]
  exact hlow

end

end Format

end TrialView.Number
