import TrialView.Proofs.Encoding.Lexeme
import TrialView.Proofs.Number.Scaling

/-!
What double arithmetic makes of a number literal, by the parts of the literal. The leading digits
that fit sixty-four bits, before the point and then behind it, are the significand; all other
digits only count for the power of ten that it is scaled by.
-/

namespace TrialView.Json

open Number

/-- The digits of a fraction. -/
inductive IsFractionOf : List Char → List Char → Prop
  | absent : IsFractionOf [] []
  | present {ds : List Char} (h : IsDigits ds) : IsFractionOf ('.' :: ds) ds

/-- The power of ten of an exponent. -/
inductive IsExponentOf : List Char → Int → Prop
  | absent : IsExponentOf [] 0
  | plain {mark : Char} {ds : List Char} (hmark : mark = 'e' ∨ mark = 'E') (h : IsDigits ds) :
      IsExponentOf (mark :: ds) (natValue ds)
  | plus {mark : Char} {ds : List Char} (hmark : mark = 'e' ∨ mark = 'E') (h : IsDigits ds) :
      IsExponentOf (mark :: '+' :: ds) (natValue ds)
  | minus {mark : Char} {ds : List Char} (hmark : mark = 'e' ∨ mark = 'E') (h : IsDigits ds) :
      IsExponentOf (mark :: '-' :: ds) (-(natValue ds : Int))

/-- A number without a sign is `digits` before the point, digits behind it and a power of ten. -/
inductive IsDecimal : List Char → List Char → List Char → Int → Prop
  | parts {whole fraction exponent digits : List Char} {x : Int} (hwhole : IsWhole whole)
      (hfraction : IsFractionOf fraction digits) (hexponent : IsExponentOf exponent x) :
      IsDecimal (whole ++ fraction ++ exponent) whole digits x

/-- The digits `kept` of `ds` are as many as fit sixty-four bits behind the digits `before`. -/
structure Fitting (before ds kept left : List Char) : Prop where
  split : ds = kept ++ left
  fits : natValue (before ++ kept) < wordLimit
  longest : ∀ c ∈ left.head?, wordLimit ≤ natValue (before ++ kept ++ [c])

/-- What double arithmetic makes of a number without a sign. -/
inductive Approximates (l : List Char) (v : ℚ) : Prop
  | scaled {whole digits kept dropped used unused : List Char} {x : Int}
      (hparts : IsDecimal l whole digits x) (hkept : Fitting [] whole kept dropped)
      (hused : Fitting kept digits used unused)
      (hv : Double.Scaled (natValue (kept ++ used)) (dropped.length - used.length + x) v)

section

variable {l whole digits before ds kept left : List Char} {x : Int} {v : ℚ} {c : Char}

theorem natValue_append_singleton (ds : List Char) (c : Char) :
    natValue (ds ++ [c]) = natValue ds * 10 + digitValue c := by
  rw [natValue, List.foldl_append]
  rfl

theorem natValue_mul_pow_le (ds es : List Char) :
    natValue ds * 10 ^ es.length ≤ natValue (ds ++ es) := by
  induction es generalizing ds with
  | nil => rw [List.append_nil, List.length_nil, Nat.pow_zero, Nat.mul_one]
  | cons c es ih =>
      have hrest := ih (ds ++ [c])
      rw [natValue_append_singleton, List.append_assoc, Nat.add_mul] at hrest
      rw [List.length_cons, Nat.pow_succ', ← Nat.mul_assoc]
      exact le_trans (Nat.le_add_right _ _) hrest

theorem digitValue_le (h : c.isDigit = true) : digitValue c ≤ 9 := by
  have hgreatest : c.val ≤ 57 := by
    simp only [Char.isDigit, Bool.and_eq_true, decide_eq_true_eq] at h
    exact h.2
  have hvalue : c.toNat ≤ 57 := UInt32.le_iff_toNat_le.mp hgreatest
  have hzero : '0'.toNat = 48 := rfl
  rw [digitValue, hzero]
  omega

theorem natValue_append_lt (ds : List Char) {es : List Char} (h : ∀ c ∈ es, c.isDigit = true) :
    natValue (ds ++ es) < (natValue ds + 1) * 10 ^ es.length := by
  induction es generalizing ds with
  | nil => simp
  | cons c es ih =>
      have hrest := ih (ds ++ [c]) fun d hd => h d (List.mem_cons_of_mem c hd)
      rw [natValue_append_singleton, List.append_assoc] at hrest
      have hdigit := digitValue_le (h c List.mem_cons_self)
      rw [List.length_cons, Nat.pow_succ', ← Nat.mul_assoc]
      exact hrest.trans_le (Nat.mul_le_mul_right _ (by omega))

theorem natValue_le_append (ds es : List Char) : natValue ds ≤ natValue (ds ++ es) :=
  le_trans (Nat.le_mul_of_pos_right _ (Nat.pow_pos (by decide))) (natValue_mul_pow_le ds es)

/-- Digits are kept until one of them does not fit. -/
theorem exists_fitting (hbefore : natValue before < wordLimit) (ds : List Char) :
    ∃ kept left, Fitting before ds kept left := by
  induction ds generalizing before with
  | nil => exact ⟨[], [], rfl, by rwa [List.append_nil], by simp⟩
  | cons c ds ih =>
      by_cases hfits : natValue (before ++ [c]) < wordLimit
      · obtain ⟨kept, left, hsplit, hkept, hlongest⟩ := ih hfits
        rw [List.append_assoc] at hkept hlongest
        exact ⟨c :: kept, left, by rw [hsplit, List.cons_append], hkept, hlongest⟩
      · refine ⟨[], c :: ds, rfl, by rwa [List.append_nil], fun d hd => ?_⟩
        obtain rfl : c = d := by simpa using hd
        rw [List.append_nil]
        exact Nat.not_lt.mp hfits

/-- One digit fewer is kept behind one digit more. -/
theorem Fitting.tail (h : Fitting before ds (c :: kept) left) :
    Fitting (before ++ [c]) (kept ++ left) kept left where
  split := rfl
  fits := by
    rw [List.append_assoc]
    exact h.fits
  longest d hd := by
    have hlongest := h.longest d hd
    rwa [List.append_assoc before [c]]

theorem Fitting.fits_head (h : Fitting before ds (c :: kept) left) :
    natValue before * 10 + digitValue c < wordLimit := by
  have hle := natValue_le_append (before ++ [c]) kept
  rw [natValue_append_singleton, List.append_assoc] at hle
  exact hle.trans_lt h.fits

theorem appendFraction_eq (h : Fitting before ds kept left) :
    appendFraction (natValue before) ds = (natValue (before ++ kept), kept.length) := by
  induction kept generalizing before ds with
  | nil =>
      obtain rfl : ds = left := h.split
      rw [List.append_nil]
      cases ds with
      | nil => rfl
      | cons c ds =>
          have hfull := h.longest c rfl
          rw [List.append_nil, natValue_append_singleton] at hfull
          rw [appendFraction, if_neg (Nat.not_lt.mpr hfull)]
          rfl
  | cons c kept ih =>
      have hrest := ih h.tail
      rw [natValue_append_singleton, List.append_assoc] at hrest
      rw [h.split, List.cons_append, appendFraction, if_pos h.fits_head, hrest]
      rfl

/-- One more digit of a whole number. -/
def lead (p : Nat × Nat) (c : Char) : Nat × Nat :=
  if p.2 = 0 ∧ p.1 * 10 + digitValue c < wordLimit then (p.1 * 10 + digitValue c, 0)
  else (p.1, p.2 + 1)

theorem foldl_lead_of_dropped (ds : List Char) (n dropped : Nat) :
    ds.foldl lead (n, dropped + 1) = (n, dropped + 1 + ds.length) := by
  induction ds generalizing dropped with
  | nil => rfl
  | cons c ds ih =>
      have hmore : lead (n, dropped + 1) c = (n, dropped + 1 + 1) :=
        if_neg fun h => absurd h.1 (Nat.succ_ne_zero dropped)
      rw [List.foldl_cons, hmore, ih, List.length_cons]
      congr 1
      omega

/-- Leading digits are read one by one, and counted from the first that does not fit. -/
theorem foldl_lead_eq (h : Fitting before ds kept left) :
    ds.foldl lead (natValue before, 0) = (natValue (before ++ kept), left.length) := by
  induction kept generalizing before ds with
  | nil =>
      obtain rfl : ds = left := h.split
      rw [List.append_nil]
      cases ds with
      | nil => rfl
      | cons c ds =>
          have hfull := h.longest c rfl
          rw [List.append_nil, natValue_append_singleton] at hfull
          have hfirst : lead (natValue before, 0) c = (natValue before, 0 + 1) :=
            if_neg fun h => absurd h.2 (Nat.not_lt.mpr hfull)
          rw [List.foldl_cons, hfirst, foldl_lead_of_dropped, List.length_cons]
          congr 1
          omega
  | cons c kept ih =>
      have hnext : lead (natValue before, 0) c = (natValue (before ++ [c]), 0) := by
        rw [natValue_append_singleton]
        exact if_pos ⟨rfl, h.fits_head⟩
      rw [h.split, List.cons_append, List.foldl_cons, hnext, ih h.tail, List.append_assoc]
      rfl

theorem leading_eq (h : Fitting [] ds kept left) : leading ds = (natValue kept, left.length) :=
  foldl_lead_eq h

/-- The mark is left off, and the sign says whether the power is negative. -/
theorem IsExponentOf.absent_or_marked {exponent : List Char} (h : IsExponentOf exponent x) :
    (exponent = [] ∧ x = 0) ∨ ∃ mark es, exponent = mark :: es ∧ mark ≠ '.' ∧
      mark.isDigit = false ∧ exponentValue es = x := by
  have hmark {mark : Char} (h : mark = 'e' ∨ mark = 'E') : mark ≠ '.' ∧ mark.isDigit = false := by
    rcases h with rfl | rfl <;> decide
  cases h with
  | absent => exact .inl ⟨rfl, rfl⟩
  | @plain mark ds hletter h =>
      refine .inr ⟨mark, ds, rfl, (hmark hletter).1, (hmark hletter).2, ?_⟩
      rw [exponentValue.eq_def]
      split
      · exact absurd (h.isDigit '-' List.mem_cons_self) (by decide)
      · exact absurd (h.isDigit '+' List.mem_cons_self) (by decide)
      · rfl
  | @plus mark ds hletter h => exact .inr ⟨mark, _, rfl, (hmark hletter).1, (hmark hletter).2, rfl⟩
  | @minus mark ds hletter h => exact .inr ⟨mark, _, rfl, (hmark hletter).1, (hmark hletter).2, rfl⟩

/-- The parts of a number are found. -/
theorem parts_eq (h : IsDecimal l whole digits x) :
    ∃ fraction? exponent?, Numeral.parts l = (whole, fraction?, exponent?) ∧
      fraction?.getD [] = digits ∧ exponentValue (exponent?.getD []) = x ∧
        (fraction? = none → exponent? = none → l = whole) := by
  obtain ⟨hwhole, hfraction, hexponent⟩ := h
  have hspan {ds rest : List Char} (hds : IsDigits ds)
      (hrest : ∀ c ∈ rest.head?, c.isDigit = false) :
      (ds ++ rest).span Char.isDigit = (ds, rest) := span_isDigit_append hds hrest
  rcases hexponent.absent_or_marked with ⟨rfl, rfl⟩ | ⟨mark, es, rfl, hpoint, hdigit, hvalue⟩
  · cases hfraction with
    | absent =>
        rw [List.append_nil, List.append_nil, parts_digits hwhole.toIsDigits]
        exact ⟨none, none, rfl, rfl, rfl, fun _ _ => rfl⟩
    | present hds =>
        have hall : digits.span Char.isDigit = (digits, []) := by
          simpa using hspan hds (show ∀ c ∈ ([] : List Char).head?, c.isDigit = false by simp)
        rw [List.append_nil, Numeral.parts, hspan hwhole.toIsDigits (by simp)]
        refine ⟨some digits, none, ?_, rfl, rfl, by simp⟩
        simp only [hall]
  · cases hfraction with
    | absent =>
        rw [List.append_nil, Numeral.parts, hspan hwhole.toIsDigits (by simpa using hdigit)]
        refine ⟨none, some es, ?_, rfl, hvalue, by simp⟩
        simp [hpoint]
    | present hds =>
        have hmarked : (digits ++ mark :: es).span Char.isDigit = (digits, mark :: es) :=
          hspan hds (by simpa using hdigit)
        rw [List.append_assoc, Numeral.parts, List.cons_append, hspan hwhole.toIsDigits (by simp)]
        refine ⟨some digits, some es, ?_, rfl, hvalue, by simp⟩
        simp only [hmarked]

/-- A number has its parts. -/
theorem exists_isDecimal (h : IsUnsigned l) : ∃ whole digits x, IsDecimal l whole digits x := by
  obtain ⟨whole, fraction, exponent, hwhole, hfraction, hexponent, rfl⟩ := h
  have hdigits : ∃ digits, IsFractionOf fraction digits := by
    cases hfraction with
    | absent => exact ⟨[], .absent⟩
    | present h => exact ⟨_, .present h⟩
  have hpower : ∃ x, IsExponentOf exponent x := by
    cases hexponent with
    | absent => exact ⟨0, .absent⟩
    | present hmark hsign h =>
        rcases hsign with rfl | rfl | rfl
        · exact ⟨_, .plain hmark h⟩
        · exact ⟨_, .plus hmark h⟩
        · exact ⟨_, .minus hmark h⟩
  obtain ⟨digits, hdigits⟩ := hdigits
  obtain ⟨x, hpower⟩ := hpower
  exact ⟨whole, digits, x, .parts hwhole hdigits hpower⟩

theorem IsDecimal.isWhole (h : IsDecimal l whole digits x) : IsWhole whole := by
  obtain ⟨hwhole, -, -⟩ := h
  exact hwhole

theorem IsDecimal.isUnsigned (h : IsDecimal l whole digits x) : IsUnsigned l := by
  obtain ⟨hwhole, hfraction, hexponent⟩ := h
  refine ⟨_, _, _, hwhole, ?_, ?_, rfl⟩
  · cases hfraction with
    | absent => exact .absent
    | present h => exact .present h
  · cases hexponent with
    | absent => exact .absent
    | plain hmark h => exact .present hmark (.inl rfl) h
    | plus hmark h => exact .present hmark (.inr (.inl rfl)) h
    | minus hmark h => exact .present hmark (.inr (.inr rfl)) h

/-- And no others. -/
theorem IsDecimal.unique {whole' digits' : List Char} {x' : Int} (h : IsDecimal l whole digits x)
    (h' : IsDecimal l whole' digits' x') : whole = whole' ∧ digits = digits' ∧ x = x' := by
  obtain ⟨fraction?, exponent?, hparts, rfl, rfl, -⟩ := parts_eq h
  obtain ⟨fraction?', exponent?', hparts', rfl, rfl, -⟩ := parts_eq h'
  rw [hparts, Prod.mk.injEq, Prod.mk.injEq] at hparts'
  obtain ⟨rfl, rfl, rfl⟩ := hparts'
  exact ⟨rfl, rfl, rfl⟩

/-- All that matters of the digits that are kept is how they are read. -/
theorem approximates_iff {dropped used unused : List Char} (h : IsDecimal l whole digits x)
    (hkept : Fitting [] whole kept dropped) (hused : Fitting kept digits used unused) :
    Approximates l v ↔
      Double.Scaled (natValue (kept ++ used)) (dropped.length - used.length + x) v := by
  constructor
  · rintro ⟨h', hkept', hused', hv⟩
    obtain ⟨rfl, rfl, rfl⟩ := h.unique h'
    obtain ⟨hvalue, hdropped⟩ := Prod.mk.inj ((leading_eq hkept').symm.trans (leading_eq hkept))
    have htaken := appendFraction_eq hused'
    rw [hvalue, appendFraction_eq hused, Prod.mk.injEq] at htaken
    rwa [htaken.1, htaken.2, ← hdropped]
  · exact .scaled h hkept hused

theorem Approximates.isUnsigned (h : Approximates l v) : IsUnsigned l := by
  obtain ⟨hparts, -, -, -⟩ := h
  exact hparts.isUnsigned

theorem Approximates.unique {w : ℚ} (hv : Approximates l v) (hw : Approximates l w) : v = w := by
  obtain ⟨hparts, hkept, hused, hv⟩ := hv
  exact hv.unique ((approximates_iff hparts hkept hused).mp hw)

/-- Every number has a significand. -/
theorem exists_significand (whole digits : List Char) : ∃ kept dropped used unused,
    Fitting [] whole kept dropped ∧ Fitting kept digits used unused := by
  have hzero : natValue ([] : List Char) < wordLimit := by decide
  obtain ⟨kept, dropped, hkept⟩ := exists_fitting hzero whole
  obtain ⟨used, unused, hused⟩ := exists_fitting hkept.fits digits
  exact ⟨kept, dropped, used, unused, hkept, hused⟩

/-- The double that is read from the parts of a number is what double arithmetic makes of it. -/
theorem real?_iff {negative : Bool} {es : List Char} (h : IsDecimal l whole digits x)
    (hx : exponentValue es = x) :
    (∃ r, Numeral.real? negative whole digits es = some (.real ⟨negative, r⟩) ∧ r.value = v) ↔
      Approximates l v := by
  obtain ⟨kept, dropped, used, unused, hkept, hused⟩ := exists_significand whole digits
  have hread : Numeral.real? negative whole digits es =
      (Double.scaled? (natValue (kept ++ used)) (dropped.length - used.length + x)).map
        fun m => .real ⟨negative, m⟩ := by
    simp only [Numeral.real?, leading_eq hkept, appendFraction_eq hused, hx]
  rw [hread, approximates_iff h hkept hused, ← Double.scaled?_iff hused.fits]
  simp

end

end TrialView.Json
