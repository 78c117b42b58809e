import TrialView.Proofs.Number.Literal

/-!
How far number literals reach. A literal is taken to a double in three roundings, one of its digits,
one of the power of ten and one of their product, and each changes a number by one part in `2 ^ 53`
at most; the digits that are left out matter less than that. So it is only next to `2 ^ 1024` that
rounding decides whether a literal is lost.
-/

namespace TrialView

namespace Number

/-- The part of a number by which rounding to a double may change it. -/
def roundoff : ℚ := 1 / 2 ^ 53

/-- Numbers that are not small are rounded by one part in `2 ^ 53` at most. -/
theorem nearest_bounds {q v : ℚ} (hq : 1 ≤ q) (h : Format.double.Nearest q v) :
    q * (1 - roundoff) ≤ v ∧ v ≤ q * (1 + roundoff) := by
  have hnormal : (2 : ℚ) ^ (Format.double.minExponent + Format.double.precision - 1) ≤ q :=
    le_trans (zpow_le_one_of_nonpos₀ (by norm_num) (by decide)) hq
  have hbits : Format.double.precision = 53 := rfl
  have hchange := h.abs_sub_le Format.regular_double hnormal
  rw [hbits] at hchange
  obtain ⟨hlow, hhigh⟩ := abs_le.mp hchange
  rw [roundoff]
  constructor <;> linarith

namespace Double

/-- A bound that leaves room for three roundings below `2 ^ 1024`. -/
def reach : ℚ := 2 ^ 1024 * (1 - 1 / 2 ^ 50)

/-- A bound from which on three roundings stay above `2 ^ 1024`. -/
def beyond : ℚ := 2 ^ 1024 * (1 + 1 / 2 ^ 50)

section

variable {n : Nat} {e : Int} {a p q v : ℚ}

theorem pow_overflow : (2 : ℚ) ^ Format.double.overflow = 2 ^ 1024 := by
  have hover : Format.double.overflow = (1024 : Nat) := rfl
  rw [hover, zpow_natCast]

theorem word_lt_beyond : 2 ^ 64 < beyond := by
  calc (2 : ℚ) ^ 64 < 2 ^ 1024 := pow_lt_pow_right₀ (by norm_num) (by norm_num)
    _ ≤ beyond := le_mul_of_one_le_right (by positivity) (by norm_num)

theorem reach_mul_lt : reach * (1 + roundoff) ^ 3 < 2 ^ 1024 := by
  have hparts : (1 - 1 / 2 ^ 50) * (1 + roundoff) ^ 3 < 1 := by norm_num [roundoff]
  rw [reach, mul_assoc]
  exact mul_lt_of_lt_one_right (by positivity) hparts

theorem pow_le_reach : 2 ^ 1023 ≤ reach := by
  have hhalf : (1 : ℚ) ≤ 2 * (1 - 1 / 2 ^ 50) := by norm_num
  have hdouble : (2 : ℚ) ^ 1024 = 2 ^ 1023 * 2 := pow_succ 2 1023
  rw [reach, hdouble, mul_assoc]
  exact le_mul_of_one_le_right (by positivity) hhalf

theorem reach_lt : reach < 10 ^ 309 := by
  have hpower : (2 : ℚ) ^ 1024 < 10 ^ 309 := by
    exact_mod_cast (by decide +kernel : 2 ^ 1024 < 10 ^ 309)
  have hpart : (1 - 1 / 2 ^ 50 : ℚ) ≤ 1 := by norm_num
  exact lt_of_le_of_lt (mul_le_of_le_one_right (by positivity) hpart) hpower

/-- A product of rounded factors, rounded once more. -/
theorem product_bounds {x y : ℚ} (hx : 1 ≤ x) (hy : 1 ≤ y) (ha : Format.double.Nearest x a)
    (hp : Format.double.Nearest y p) (hv : Format.double.Nearest (a * p) v) :
    x * y * (1 - roundoff) ^ 3 ≤ v ∧ v ≤ x * y * (1 + roundoff) ^ 3 := by
  have ha₁ := one_le_of_nearest hx ha
  have hp₁ := one_le_of_nearest hy hp
  obtain ⟨halow, hahigh⟩ := nearest_bounds hx ha
  obtain ⟨hplow, hphigh⟩ := nearest_bounds hy hp
  obtain ⟨hvlow, hvhigh⟩ := nearest_bounds (one_le_mul_of_one_le_of_one_le ha₁ hp₁) hv
  have hless : 0 ≤ 1 - roundoff := by norm_num [roundoff]
  have hmore : 0 ≤ 1 + roundoff := by norm_num [roundoff]
  constructor
  · calc x * y * (1 - roundoff) ^ 3
        = x * (1 - roundoff) * (y * (1 - roundoff)) * (1 - roundoff) := by ring
      _ ≤ a * p * (1 - roundoff) := by gcongr
      _ ≤ v := hvlow
  · calc v ≤ a * p * (1 + roundoff) := hvhigh
      _ ≤ x * (1 + roundoff) * (y * (1 + roundoff)) * (1 + roundoff) := by gcongr
      _ = x * y * (1 + roundoff) ^ 3 := by ring

theorem exists_divided (hq : 0 ≤ q) (k : Nat) : ∃ v, Divided q k v := by
  induction k using Nat.strongRecOn generalizing q with
  | ind k ih =>
      obtain ⟨p, hp⟩ := Format.exists_nearest Format.regular_double
        (show (0 : ℚ) ≤ 10 ^ min k maxPower by positivity)
      have hpos : 0 ≤ q / p := div_nonneg hq hp.holds.nonneg
      obtain ⟨u, hu⟩ := Format.exists_nearest Format.regular_double hpos
      rcases Nat.lt_or_ge maxPower k with hk | hk
      · rw [Nat.min_eq_right hk.le] at hp
        obtain ⟨v, hv⟩ := ih (k - maxPower) (by
          have hmax : 0 < maxPower := by decide
          omega) hu.holds.nonneg
        exact ⟨v, .far hk hp hu hv⟩
      · rw [Nat.min_eq_left hk] at hp
        exact ⟨u, .near hk hp hu⟩

/-- What is within reach is not lost. -/
theorem exists_scaled (h : (n : ℚ) * 10 ^ e ≤ reach) : ∃ v, Scaled n e v := by
  obtain ⟨a, ha⟩ := Format.exists_nearest Format.regular_double (Nat.cast_nonneg (α := ℚ) n)
  rcases lt_or_ge e 0 with he | he
  · obtain ⟨v, hv⟩ := exists_divided ha.holds.nonneg e.natAbs
    exact ⟨v, .down he ha hv⟩
  rcases Nat.eq_zero_or_pos n with hn | hn
  · exact ⟨0, .zero he hn⟩
  · have hone : (1 : ℚ) ≤ n := by exact_mod_cast hn
    have hten : (1 : ℚ) ≤ 10 ^ e := one_le_zpow₀ (by norm_num) he
    have hpower : e ≤ maxPower := by
      by_contra hlarge
      have hnext : (10 : ℚ) ^ (309 : Int) ≤ 10 ^ e := by
        have hmax : maxPower = 308 := rfl
        exact zpow_le_zpow_right₀ (by norm_num) (by omega)
      have hle := (hnext.trans (le_mul_of_one_le_left (by positivity) hone)).trans h
      exact absurd (hle.trans_lt reach_lt) (by rw [← zpow_natCast]; exact lt_irrefl _)
    obtain ⟨p, hp⟩ := Format.exists_nearest Format.regular_double (zero_le_one.trans hten)
    have hproduct : 0 ≤ a * p := mul_nonneg ha.holds.nonneg hp.holds.nonneg
    obtain ⟨v, hv⟩ := Format.exists_nearest Format.regular_double hproduct
    have hbound := (product_bounds hone hten ha hp hv).2
    refine ⟨v, .up he hn.ne' hpower ha hp hv ?_⟩
    rw [pow_overflow]
    refine lt_of_le_of_lt (hbound.trans ?_) reach_mul_lt
    exact mul_le_mul_of_nonneg_right h (by norm_num [roundoff])

/-- What is scaled to a double is not much beyond the range. -/
theorem Scaled.lt (hn : n < 2 ^ 64) (h : Scaled n e v) :
    (n : ℚ) * 10 ^ e < 2 ^ 1024 * (1 + 1 / 2 ^ 51) := by
  have hpositive : (0 : ℚ) < 2 ^ 1024 * (1 + 1 / 2 ^ 51) := by positivity
  cases h with
  | zero _ hn => rwa [hn, Nat.cast_zero, zero_mul]
  | up he hn _ ha hp hv hlt =>
      have hone : (1 : ℚ) ≤ n := by exact_mod_cast Nat.one_le_iff_ne_zero.mpr hn
      have hten : (1 : ℚ) ≤ 10 ^ e := one_le_zpow₀ (by norm_num) he
      have hbound := (product_bounds hone hten ha hp hv).1
      have hless : 0 < (1 - roundoff) ^ 3 := by norm_num [roundoff]
      have hparts : 1 ≤ (1 + 1 / 2 ^ 51) * (1 - roundoff) ^ 3 := by norm_num [roundoff]
      rw [pow_overflow] at hlt
      refine lt_of_mul_lt_mul_right ((hbound.trans_lt hlt).trans_le ?_) hless.le
      rw [mul_assoc]
      exact le_mul_of_one_le_right (by positivity) hparts
  | down he _ _ =>
      have hword : (n : ℚ) ≤ 2 ^ 64 := by exact_mod_cast hn.le
      have hsmall : (10 : ℚ) ^ e ≤ 1 := zpow_le_one_of_nonpos₀ (by norm_num) he.le
      calc (n : ℚ) * 10 ^ e ≤ n := mul_le_of_le_one_right (Nat.cast_nonneg n) hsmall
        _ ≤ 2 ^ 64 := hword
        _ < 2 ^ 1024 := pow_lt_pow_right₀ (by norm_num) (by norm_num)
        _ ≤ 2 ^ 1024 * (1 + 1 / 2 ^ 51) := le_mul_of_one_le_right (by positivity) (by norm_num)

end

end Double

end Number

namespace Json

open Number

/-- The exact value of a number without a sign. -/
def unsignedValue (l : List Char) : ℚ :=
  let fraction := (Numeral.parts l).2.1.getD []
  let exponent := (Numeral.parts l).2.2.getD []
  natValue ((Numeral.parts l).1 ++ fraction) * 10 ^ (exponentValue exponent - fraction.length)

/-- The exact value of a literal, apart from its sign. -/
def absValue : List Char → ℚ
  | '-' :: cs => unsignedValue cs
  | cs => unsignedValue cs

section

variable {l whole digits kept dropped used unused : List Char} {x : Int} {v : ℚ}

theorem IsDecimal.unsignedValue_eq (h : IsDecimal l whole digits x) :
    unsignedValue l = natValue (whole ++ digits) * 10 ^ (x - digits.length) := by
  obtain ⟨fraction?, exponent?, hparts, rfl, rfl, -⟩ := parts_eq h
  rw [unsignedValue, hparts]

theorem unsignedValue_digits (h : IsDigits l) : unsignedValue l = natValue l := by
  have hzero : exponentValue [] - (([] : List Char).length : Int) = 0 := rfl
  rw [unsignedValue, parts_digits h]
  simp only [Option.getD_none, List.append_nil, hzero, zpow_zero, mul_one]

/-- The significand never stands for more than the digits do. Digits behind the point may follow
others that were dropped, but only if they are smaller than these. -/
theorem significand_le (hkept : Fitting [] whole kept dropped)
    (hused : Fitting kept digits used unused) :
    natValue (kept ++ used) * 10 ^ (dropped.length + unused.length) ≤
      natValue (whole ++ digits) := by
  rw [hkept.split, hused.split]
  rcases dropped with _ | ⟨c, dropped⟩
  · have hdigits := natValue_mul_pow_le (kept ++ used) unused
    simpa using hdigits
  rcases used with _ | ⟨d, used⟩
  · have hdigits := natValue_mul_pow_le kept (c :: dropped ++ unused)
    rw [List.length_append] at hdigits
    simpa using hdigits
  · have hfull : natValue (kept ++ d :: used) ≤ natValue (kept ++ [c]) :=
      hused.fits.le.trans (hkept.longest c rfl)
    have hplaces : (c :: dropped).length + unused.length ≤
        (dropped ++ (d :: used ++ unused)).length := by
      simp only [List.length_cons, List.length_append]
      omega
    calc natValue (kept ++ d :: used) * 10 ^ ((c :: dropped).length + unused.length)
        ≤ natValue (kept ++ [c]) * 10 ^ (dropped ++ (d :: used ++ unused)).length :=
          Nat.mul_le_mul hfull (Nat.pow_le_pow_right (by decide) hplaces)
      _ ≤ natValue (kept ++ [c] ++ (dropped ++ (d :: used ++ unused))) :=
          natValue_mul_pow_le _ _
      _ = natValue (kept ++ c :: dropped ++ (d :: used ++ unused)) := by
          simp only [List.append_assoc, List.cons_append, List.nil_append]

/-- Digits that are left out stand behind a number of more than sixty bits. -/
theorem Fitting.le_of_left {before ds left : List Char} (h : Fitting before ds kept left)
    (hdigits : ∀ c ∈ ds, c.isDigit = true) (hleft : left ≠ []) :
    2 ^ 60 ≤ natValue (before ++ kept) := by
  obtain ⟨c, left, rfl⟩ := List.exists_cons_of_ne_nil hleft
  have hfull := h.longest c rfl
  have hdigit := digitValue_le (hdigits c (by simp [h.split]))
  have hlimit : wordLimit = 2 ^ 64 := rfl
  rw [natValue_append_singleton] at hfull
  omega

/-- The significand never stands for much less than the digits do. -/
theorem le_significand (hwhole : ∀ c ∈ whole, c.isDigit = true)
    (hdigits : ∀ c ∈ digits, c.isDigit = true) (hkept : Fitting [] whole kept dropped)
    (hused : Fitting kept digits used unused) :
    natValue (whole ++ digits) * 2 ^ 60 ≤
      natValue (kept ++ used) * 10 ^ (dropped.length + unused.length) * (2 ^ 60 + 1) := by
  have hpart {k m unit : Nat} (hk : 2 ^ 60 ≤ k) (hm : m < (k + 1) * unit) :
      m * 2 ^ 60 ≤ k * unit * (2 ^ 60 + 1) := by
    have hunit := Nat.mul_le_mul_right unit hk
    nlinarith
  by_cases hdropped : dropped = []
  · by_cases hunused : unused = []
    · have hwhole' := hkept.split
      have hdigits' := hused.split
      rw [hdropped, List.append_nil] at hwhole'
      rw [hunused, List.append_nil] at hdigits'
      rw [hwhole', hdigits', hdropped, hunused, List.length_nil, Nat.pow_zero, Nat.mul_one]
      exact Nat.mul_le_mul_left _ (Nat.le_succ _)
    · refine hpart (hused.le_of_left hdigits hunused) ?_
      have hlt := natValue_append_lt (kept ++ used) fun c hc =>
        hdigits c (hused.split ▸ List.mem_append_right used hc)
      rw [hkept.split, hused.split, hdropped, List.append_nil, ← List.append_assoc]
      rwa [List.length_nil, Nat.zero_add]
  · have hall : ∀ c ∈ dropped ++ digits, c.isDigit = true := by
      intro c hc
      rcases List.mem_append.mp hc with hc | hc
      · exact hwhole c (hkept.split ▸ List.mem_append_right kept hc)
      · exact hdigits c hc
    have hle := hpart (hkept.le_of_left hwhole hdropped) (natValue_append_lt kept hall)
    have hused' := Nat.mul_le_mul_right (10 ^ (dropped.length + unused.length))
      (natValue_mul_pow_le kept used)
    have hplaces : (dropped ++ digits).length = used.length + (dropped.length + unused.length) := by
      rw [hused.split, List.length_append, List.length_append]
      omega
    rw [List.nil_append, hplaces, Nat.pow_add, ← Nat.mul_assoc] at hle
    rw [hkept.split, List.append_assoc]
    exact hle.trans (Nat.mul_le_mul_right _ hused')

theorem IsDecimal.isDigit (h : IsDecimal l whole digits x) :
    (∀ c ∈ whole, c.isDigit = true) ∧ ∀ c ∈ digits, c.isDigit = true := by
  refine ⟨h.isWhole.isDigit, fun c hc => ?_⟩
  obtain ⟨-, hfraction, -⟩ := h
  cases hfraction with
  | absent => cases hc
  | present h => exact h.isDigit c hc

/-- The value of the significand, scaled as it is. -/
theorem scaled_place (hused : Fitting kept digits used unused) (n dropped : Nat) (x : Int) :
    (n : ℚ) * 10 ^ ((dropped : Int) - used.length + x) =
      (n * 10 ^ (dropped + unused.length) : Nat) * 10 ^ (x - digits.length) := by
  have hplace : (dropped : Int) - used.length + x =
      (dropped + unused.length : Nat) + (x - digits.length) := by
    rw [hused.split, List.length_append]
    omega
  rw [hplace, zpow_add₀ (by norm_num), zpow_natCast]
  push_cast
  ring

/-- A number within the reach of doubles is not lost. -/
theorem exists_approximates (h : IsUnsigned l) (hreach : unsignedValue l ≤ Double.reach) :
    ∃ v, Approximates l v := by
  obtain ⟨whole, digits, x, hparts⟩ := exists_isDecimal h
  obtain ⟨kept, dropped, used, unused, hkept, hused⟩ := exists_significand whole digits
  obtain ⟨v, hv⟩ : ∃ v, Double.Scaled (natValue (kept ++ used))
      (dropped.length - used.length + x) v := by
    apply Double.exists_scaled
    have hle : ((natValue (kept ++ used) * 10 ^ (dropped.length + unused.length) : Nat) : ℚ) ≤
        (natValue (whole ++ digits) : Nat) := by
      exact_mod_cast significand_le hkept hused
    rw [scaled_place hused]
    rw [hparts.unsignedValue_eq] at hreach
    exact (mul_le_mul_of_nonneg_right hle (by positivity)).trans hreach
  exact ⟨v, .scaled hparts hkept hused hv⟩

/-- A number beyond the reach of doubles is lost. -/
theorem Approximates.unsignedValue_lt (h : Approximates l v) : unsignedValue l < Double.beyond := by
  cases h with
  | @scaled whole digits kept dropped used unused x hparts hkept hused hv =>
      obtain ⟨hwhole, hdigits⟩ := hparts.isDigit
      have hlt := hv.lt hused.fits
      have hle : (natValue (whole ++ digits) : ℚ) * 2 ^ 60 ≤
          (natValue (kept ++ used) * 10 ^ (dropped.length + unused.length) : Nat) *
            (2 ^ 60 + 1) := by
        exact_mod_cast le_significand hwhole hdigits hkept hused
      have hroom : (2 : ℚ) ^ 1024 * (1 + 1 / 2 ^ 51) * (2 ^ 60 + 1) ≤ Double.beyond * 2 ^ 60 := by
        rw [Double.beyond, mul_assoc, mul_assoc]
        exact mul_le_mul_of_nonneg_left (by norm_num) (by positivity)
      rw [scaled_place hused] at hlt
      rw [hparts.unsignedValue_eq]
      generalize (natValue (kept ++ used) * 10 ^ (dropped.length + unused.length) : Nat) = m
        at hlt hle
      have hunit : (0 : ℚ) ≤ 10 ^ (x - (digits.length : Int)) := by positivity
      refine lt_of_mul_lt_mul_right ?_ (show (0 : ℚ) ≤ 2 ^ 60 by positivity)
      calc (natValue (whole ++ digits) : ℚ) * 10 ^ (x - (digits.length : Int)) * 2 ^ 60
          = natValue (whole ++ digits) * 2 ^ 60 * 10 ^ (x - (digits.length : Int)) :=
            mul_right_comm _ _ _
        _ ≤ m * (2 ^ 60 + 1) * 10 ^ (x - (digits.length : Int)) := by gcongr
        _ = m * 10 ^ (x - (digits.length : Int)) * (2 ^ 60 + 1) := mul_right_comm _ _ _
        _ < 2 ^ 1024 * (1 + 1 / 2 ^ 51) * (2 ^ 60 + 1) := by gcongr
        _ ≤ Double.beyond * 2 ^ 60 := hroom

end

end Json

end TrialView
