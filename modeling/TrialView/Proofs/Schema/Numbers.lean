import TrialView.Proofs.Encoding.Record
import TrialView.Proofs.Number.Packing
import TrialView.Proofs.Number.Range

/-!
What number literals stand for, apart from how they are read. A literal without point and exponent
stands for an integer, except for the negative zero. In single precision an integer of sixty-four
bits is rounded as it is; all other literals are rounded from what double arithmetic makes of them,
and stand for nothing if that is past the range.
-/

namespace TrialView

open Json Number

/-- A literal of digits stands for an integer, and so does one with a sign, unless it is the
negative zero. -/
inductive IsInteger : Json → Int → Prop
  | natural {ds : List Char} (h : IsDigits ds) : IsInteger (.number ds) (natValue ds)
  | negative {ds : List Char} (h : IsDigits ds) (hpos : 0 < natValue ds) :
      IsInteger (.number ('-' :: ds)) (-(natValue ds : Int))

/-- The integers that fit sixty-four bits, with or without a sign. -/
structure IsWord (v : Json) (z : Int) : Prop where
  integer : IsInteger v z
  least : -(wordLimit / 2 : Nat) ≤ z
  lt : z < wordLimit

/-- What double arithmetic makes of a number, with its sign. -/
inductive IsReal : Json → Bool → ℚ → Prop
  | positive {l : List Char} {q : ℚ} (h : Approximates l q) : IsReal (.number l) false q
  | negative {l : List Char} {q : ℚ} (h : Approximates l q) : IsReal (.number ('-' :: l)) true q

/-- A number stands for what it is rounded to in single precision, once if it is an integer of
sixty-four bits, and from double precision otherwise. -/
inductive IsSingle (v : Json) (x : Single) : Prop
  | integer {z : Int} (hz : IsWord v z) (hx : x.Rounds (z < 0) z.natAbs)
  | real {negative : Bool} {q : ℚ} (hother : ∀ z, ¬ IsWord v z) (hq : IsReal v negative q)
      (hx : x.Rounds negative q)

/-- Only number literals stand for integers. -/
theorem IsInteger.exists_number {v : Json} {z : Int} (h : IsInteger v z) : ∃ l, v = .number l := by
  cases h <;> exact ⟨_, rfl⟩

theorem IsSingle.exists_number {v : Json} {x : Single} (h : IsSingle v x) :
    ∃ l, v = .number l := by
  cases h with
  | integer hz _ => exact hz.integer.exists_number
  | real _ hq _ => cases hq <;> exact ⟨_, rfl⟩

theorem not_isDigits_sign (cs : List Char) : ¬ IsDigits ('-' :: cs) := by
  intro h
  cases h.isDigit '-' List.mem_cons_self

theorem not_isUnsigned_sign (cs : List Char) : ¬ IsUnsigned ('-' :: cs) := by
  rintro ⟨whole, fraction, exponent, hwhole, -, -, hl⟩
  obtain ⟨c, ds, rfl⟩ := List.exists_cons_of_ne_nil hwhole.ne_nil
  obtain rfl : '-' = c := (List.cons.inj hl).1
  exact not_isDigits_sign ds hwhole.toIsDigits

theorem IsInteger.unique {v : Json} {y z : Int} (hy : IsInteger v y) (hz : IsInteger v z) :
    y = z := by
  cases hy with
  | natural hdigits =>
      cases hz with
      | natural _ => rfl
      | negative _ _ => exact absurd hdigits (not_isDigits_sign _)
  | negative _ _ =>
      cases hz with
      | natural hdigits => exact absurd hdigits (not_isDigits_sign _)
      | negative _ _ => rfl

theorem IsReal.unique {v : Json} {a b : Bool} {p q : ℚ} (hp : IsReal v a p) (hq : IsReal v b q) :
    a = b ∧ p = q := by
  cases hp with
  | positive hp =>
      cases hq with
      | positive hq => exact ⟨rfl, hp.unique hq⟩
      | negative _ => exact absurd hp.isUnsigned (not_isUnsigned_sign _)
  | negative hp =>
      cases hq with
      | positive hq => exact absurd hq.isUnsigned (not_isUnsigned_sign _)
      | negative hq => exact ⟨rfl, hp.unique hq⟩

namespace Json

/-- A number with its sign. -/
def signed (negative : Bool) (l : List Char) : List Char := if negative then '-' :: l else l

/-- An integer with its sign. -/
def signedValue (negative : Bool) (n : Nat) : Int := if negative then -(n : Int) else n

/-- Whether an integer with its sign fits sixty-four bits. The negative zero is none. -/
def FitsWord (negative : Bool) (n : Nat) : Prop :=
  if negative then 0 < n ∧ n ≤ wordLimit / 2 else n < wordLimit

instance (negative : Bool) (n : Nat) : Decidable (FitsWord negative n) :=
  inferInstanceAs (Decidable (if negative then _ else _))

/-- The numeral of an integer. -/
def Numeral.ofWord (z : Int) : Numeral := if z < 0 then .negative z else .natural z.toNat

/-- What a literal stands for: an integer of sixty-four bits, a double, or nothing. -/
inductive Stands (l : List Char) : Option Numeral → Prop
  | word {z : Int} (hz : IsWord (.number l) z) : Stands l (some (.ofWord z))
  | real {negative : Bool} {r : Magnitude} (hother : ∀ z, ¬ IsWord (.number l) z)
      (h : IsReal (.number l) negative r.value) : Stands l (some (.real ⟨negative, r⟩))
  | past (hother : ∀ z, ¬ IsWord (.number l) z)
      (h : ∀ negative q, ¬ IsReal (.number l) negative q) : Stands l none

section

variable {l ds whole digits : List Char} {n : Nat} {x z : Int} {q : ℚ} {negative b : Bool}
  {s : Single}

theorem exists_signed (h : IsLexeme l) : ∃ negative w, IsUnsigned w ∧ l = signed negative w := by
  cases h with
  | positive h => exact ⟨false, l, h, rfl⟩
  | @negative w h => exact ⟨true, w, h, rfl⟩

/-- Only the digits of an integer and their sign matter. -/
theorem isWord_signed_iff (h : IsUnsigned l) :
    IsWord (.number (signed negative l)) z ↔
      (IsDigits l ∧ FitsWord negative (natValue l)) ∧ z = signedValue negative (natValue l) := by
  cases negative with
  | false =>
      simp only [signed, signedValue, FitsWord, Bool.false_eq_true, if_false]
      constructor
      · rintro ⟨hz, -, hlt⟩
        cases hz with
        | natural hdigits => exact ⟨⟨hdigits, by omega⟩, rfl⟩
        | negative _ _ => exact absurd h (not_isUnsigned_sign _)
      · rintro ⟨⟨hdigits, hlt⟩, rfl⟩
        exact ⟨.natural hdigits, by omega, by omega⟩
  | true =>
      simp only [signed, signedValue, FitsWord, if_true]
      constructor
      · rintro ⟨hz, hleast, -⟩
        cases hz with
        | natural hdigits => exact absurd hdigits (not_isDigits_sign _)
        | negative hdigits hpos => exact ⟨⟨hdigits, hpos, by omega⟩, rfl⟩
      · rintro ⟨⟨hdigits, hpos, hle⟩, rfl⟩
        exact ⟨.negative hdigits hpos, by omega, by omega⟩

theorem isReal_signed_iff (h : IsUnsigned l) :
    IsReal (.number (signed negative l)) b q ↔ b = negative ∧ Approximates l q := by
  cases negative with
  | false =>
      simp only [signed, Bool.false_eq_true, if_false]
      constructor
      · intro hq
        cases hq with
        | positive hq => exact ⟨rfl, hq⟩
        | negative _ => exact absurd h (not_isUnsigned_sign _)
      · rintro ⟨rfl, hq⟩
        exact .positive hq
  | true =>
      simp only [signed, if_true]
      constructor
      · intro hq
        cases hq with
        | positive hq => exact absurd hq.isUnsigned (not_isUnsigned_sign _)
        | negative hq => exact ⟨rfl, hq⟩
      · rintro ⟨rfl, hq⟩
        exact .negative hq

theorem ofLexeme?_eq_ofUnsigned? (h : IsUnsigned l) (negative : Bool) :
    Numeral.ofLexeme? (signed negative l) = Numeral.ofUnsigned? negative l := by
  cases negative with
  | false =>
      rw [signed, if_neg Bool.false_ne_true, Numeral.ofLexeme?.eq_def]
      split
      · exact absurd h (not_isUnsigned_sign _)
      · rfl
  | true => rfl

/-- Digits alone are read as an integer if they fit, and everything else as a double. -/
theorem ofUnsigned?_eq (h : IsDecimal l whole digits x) (negative : Bool) :
    ∃ es, exponentValue es = x ∧ Numeral.ofUnsigned? negative l =
      if IsDigits l ∧ FitsWord negative (natValue l) then
        some (.ofWord (signedValue negative (natValue l)))
      else Numeral.real? negative whole digits es := by
  obtain ⟨fraction?, exponent?, hparts, rfl, hx, hwhole⟩ := parts_eq h
  refine ⟨exponent?.getD [], hx, ?_⟩
  by_cases hdigits : IsDigits l
  · rw [parts_digits hdigits, Prod.mk.injEq, Prod.mk.injEq] at hparts
    obtain ⟨rfl, rfl, rfl⟩ := hparts
    rw [Numeral.ofUnsigned?, parts_digits hdigits]
    cases negative with
    | false =>
        have hpositive : ¬ (natValue l : Int) < 0 := by omega
        simp [FitsWord, signedValue, Numeral.ofWord, hdigits, hpositive]
    | true =>
        simp only [FitsWord, signedValue, Numeral.ofWord, hdigits, Bool.not_true, Bool.false_and,
          Bool.true_and, Bool.and_eq_true, decide_eq_true_eq, if_true, true_and,
          Bool.false_eq_true, if_false]
        split_ifs with hword hnegative
        · rfl
        · omega
        · rfl
  · rw [if_neg fun hword => hdigits hword.1, Numeral.ofUnsigned?, hparts]
    rcases fraction? with _ | fraction <;> rcases exponent? with _ | exponent
    · exact absurd (hwhole rfl rfl ▸ h.isWhole.toIsDigits) hdigits
    all_goals rfl

theorem real?_eq_none_or (negative : Bool) (whole digits es : List Char) :
    Numeral.real? negative whole digits es = none ∨
      ∃ r, Numeral.real? negative whole digits es = some (.real ⟨negative, r⟩) := by
  simp only [Numeral.real?]
  cases Double.scaled? _ _ with
  | none => exact .inl rfl
  | some r => exact .inr ⟨r, rfl⟩

/-- A literal is read by what it stands for. -/
theorem stands_ofLexeme? (h : IsLexeme l) : Stands l (Numeral.ofLexeme? l) := by
  obtain ⟨negative, w, hw, rfl⟩ := exists_signed h
  obtain ⟨whole, digits, x, hparts⟩ := exists_isDecimal hw
  obtain ⟨es, hx, hread⟩ := ofUnsigned?_eq hparts negative
  rw [ofLexeme?_eq_ofUnsigned? hw, hread]
  split_ifs with hword
  · exact .word ((isWord_signed_iff hw).mpr ⟨hword, rfl⟩)
  · have hother (z : Int) : ¬ IsWord (.number (signed negative w)) z := fun hz =>
      hword ((isWord_signed_iff hw).mp hz).1
    rcases real?_eq_none_or negative whole digits es with hnone | ⟨r, hr⟩
    · rw [hnone]
      refine .past hother fun b q hq => ?_
      obtain ⟨r, hr, -⟩ := (real?_iff hparts hx).mpr ((isReal_signed_iff hw).mp hq).2
      rw [hnone] at hr
      cases hr
    · rw [hr]
      exact .real hother ((isReal_signed_iff hw).mpr ⟨rfl, (real?_iff hparts hx).mp ⟨r, hr, rfl⟩⟩)

theorem readNatural_number_iff {limit : Nat} (expected : String) (hlimit : limit ≤ wordLimit)
    (h : IsLexeme l) :
    readNatural limit expected (.number l) = .ok n ↔ IsInteger (.number l) n ∧ n < limit := by
  obtain ⟨fault, hfault⟩ := exists_mismatch_eq (α := Nat) (.number l) expected
  have hstands := stands_ofLexeme? h
  rw [readNatural]
  generalize Numeral.ofLexeme? l = n? at hstands ⊢
  have hword : IsInteger (.number l) n ∧ n < limit → IsWord (.number l) n := by
    rintro ⟨hn, hlt⟩
    exact ⟨hn, by omega, by omega⟩
  cases hstands with
  | @word z hz =>
      have hsame : IsInteger (.number l) n ↔ (n : Int) = z :=
        ⟨fun hn => hn.unique hz.integer, fun hn => hn ▸ hz.integer⟩
      rw [hsame, Numeral.ofWord]
      split_ifs with hneg
      · refine iff_of_false (by simp [outOfRange]) ?_
        omega
      · dsimp only
        split_ifs with hlt
        · rw [Except.ok.injEq]
          omega
        · refine iff_of_false (by simp [outOfRange]) ?_
          omega
  | real hother _ | past hother _ =>
      dsimp only
      rw [hfault]
      exact iff_of_false (by simp) fun hn => hother n (hword hn)

theorem readInteger_number_iff (h : IsLexeme l) :
    readInteger (.number l) = .ok z ↔ IsInteger (.number l) z ∧
      -(wordLimit / 2 : Nat) ≤ z ∧ z < (wordLimit / 2 : Nat) := by
  obtain ⟨fault, hfault⟩ := exists_mismatch_eq (α := Int) (.number l) "i64"
  have hstands := stands_ofLexeme? h
  rw [readInteger]
  generalize Numeral.ofLexeme? l = n? at hstands ⊢
  have hword : IsInteger (.number l) z ∧ -(wordLimit / 2 : Nat) ≤ z ∧ z < (wordLimit / 2 : Nat) →
      IsWord (.number l) z := by
    rintro ⟨hz, hle, hlt⟩
    exact ⟨hz, hle, by omega⟩
  cases hstands with
  | @word y hy =>
      have hsame : IsInteger (.number l) z ↔ z = y :=
        ⟨fun hz => hz.unique hy.integer, fun hz => hz ▸ hy.integer⟩
      have hleast := hy.least
      rw [hsame, Numeral.ofWord]
      split_ifs with hneg
      · simp only [Except.ok.injEq]
        omega
      · dsimp only
        split_ifs with hlt
        · rw [Except.ok.injEq]
          omega
        · refine iff_of_false (by simp [outOfRange]) ?_
          omega
  | real hother _ | past hother _ =>
      dsimp only
      rw [hfault]
      exact iff_of_false (by simp) fun hz => hother z (hword hz)

theorem toSingle_ofWord (z : Int) : (Numeral.ofWord z).toSingle = Single.ofInt z := by
  rw [Numeral.ofWord]
  split_ifs with hneg
  · rfl
  · rw [Numeral.toSingle, Int.toNat_of_nonneg (not_lt.mp hneg)]

theorem readSingle_number_iff (h : IsLexeme l) :
    readSingle (.number l) = .ok s ↔ IsSingle (.number l) s := by
  have hstands := stands_ofLexeme? h
  rw [readSingle]
  generalize Numeral.ofLexeme? l = n? at hstands ⊢
  cases hstands with
  | @word z hz =>
      have hround : (Single.ofInt z).Rounds (z < 0) z.natAbs :=
        Single.rounds_ofMagnitude _ (Magnitude.rounds_ofNat? Format.regular_single _)
      dsimp only
      rw [toSingle_ofWord, Except.ok.injEq]
      constructor
      · rintro rfl
        exact .integer hz hround
      · intro hs
        cases hs with
        | integer hz' hs =>
            obtain rfl := hz.integer.unique hz'.integer
            exact hround.unique hs
        | real hother _ _ => exact absurd hz (hother z)
  | @real negative r hother hr =>
      have hround : (Double.toSingle ⟨negative, r⟩).Rounds negative r.value :=
        Single.rounds_ofMagnitude _ (Magnitude.rounds_convert? Format.regular_single _)
      dsimp only
      rw [Numeral.toSingle, Except.ok.injEq]
      constructor
      · rintro rfl
        exact .real hother hr hround
      · intro hs
        cases hs with
        | integer hz _ => exact absurd hz (hother _)
        | real _ hq hs =>
            obtain ⟨rfl, rfl⟩ := hr.unique hq
            exact hround.unique hs
  | past hother hnone =>
      refine iff_of_false (by simp) fun hs => ?_
      cases hs with
      | integer hz _ => exact hother _ hz
      | real _ hq _ => exact hnone _ _ hq

theorem absValue_signed (h : IsUnsigned l) : absValue (signed negative l) = unsignedValue l := by
  cases negative with
  | false =>
      rw [signed, if_neg Bool.false_ne_true, absValue]
      rintro cs rfl
      exact not_isUnsigned_sign cs h
  | true => rfl

/-- A number within the reach of doubles stands for one value. -/
theorem existsUnique_isSingle (h : IsLexeme l) (hreach : absValue l ≤ Double.reach) :
    ∃! s, IsSingle (.number l) s := by
  have hread : ∃ s, readSingle (.number l) = .ok s := by
    have hstands := stands_ofLexeme? h
    rw [readSingle]
    generalize Numeral.ofLexeme? l = n? at hstands ⊢
    cases hstands with
    | word _ | real _ _ => exact ⟨_, rfl⟩
    | past _ hnone =>
        obtain ⟨negative, w, hw, rfl⟩ := exists_signed h
        rw [absValue_signed hw] at hreach
        obtain ⟨q, hq⟩ := exists_approximates hw hreach
        exact absurd ((isReal_signed_iff hw).mpr ⟨rfl, hq⟩) (hnone negative q)
  obtain ⟨s, hs⟩ := hread
  refine ⟨s, (readSingle_number_iff h).mp hs, fun t ht => ?_⟩
  have hread := (readSingle_number_iff h).mpr ht
  rw [hs] at hread
  exact (Except.ok.inj hread).symm

/-- A number beyond the reach of doubles stands for none. -/
theorem not_isSingle (h : IsLexeme l) (hbeyond : Double.beyond ≤ absValue l) (s : Single) :
    ¬ IsSingle (.number l) s := by
  obtain ⟨negative, w, hw, rfl⟩ := exists_signed h
  rw [absValue_signed hw] at hbeyond
  intro hs
  cases hs with
  | integer hz _ =>
      obtain ⟨hdigits, hfits⟩ := ((isWord_signed_iff hw).mp hz).1
      have hlimit : wordLimit = 2 ^ 64 := rfl
      have hword : natValue w < 2 ^ 64 := by
        unfold FitsWord at hfits
        split at hfits <;> omega
      have hvalue : (natValue w : ℚ) < 2 ^ 64 := by exact_mod_cast hword
      rw [unsignedValue_digits hdigits] at hbeyond
      exact absurd hbeyond (not_le.mpr (hvalue.trans Double.word_lt_beyond))
  | real _ hq _ =>
      exact absurd hbeyond (not_le.mpr ((isReal_signed_iff hw).mp hq).2.unsignedValue_lt)

end

end Json

end TrialView
