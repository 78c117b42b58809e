import TrialView.Json.Source
import TrialView.Json.Writer
import Mathlib.Data.List.Basic
import Mathlib.Data.List.TakeDrop
import Mathlib.Tactic.ByContra

/-!
Written numbers as lexemes. A lexeme has perhaps a sign, digits before the point, perhaps a fraction
and perhaps an exponent, and it is read as far as it goes from in front of anything that no number
goes on with.
Natural numbers, integers and the shortest texts of single-precision numbers are lexemes, in
whatever layout the last are written. The first two are read back as themselves as far as
sixty-four bits go; whether a single-precision number is, depends on the number.
-/

namespace TrialView.Json

open Number

/-- One or more digits. -/
structure IsDigits (ds : List Char) : Prop where
  ne_nil : ds ≠ []
  isDigit : ∀ c ∈ ds, c.isDigit = true

instance (ds : List Char) : Decidable (IsDigits ds) :=
  decidable_of_iff ((!ds.isEmpty && ds.all Char.isDigit) = true) <| by
    rw [Bool.and_eq_true, Bool.not_eq_true', List.isEmpty_eq_false_iff, List.all_eq_true]
    exact ⟨fun h => ⟨h.1, h.2⟩, fun h => ⟨h.ne_nil, h.isDigit⟩⟩

/-- Digits before a point: a zero stands alone. -/
structure IsWhole (ds : List Char) : Prop extends IsDigits ds where
  zero_alone : ds.head? = some '0' → ds.length = 1

/-- A point with digits behind it, or nothing. -/
inductive IsFraction : List Char → Prop
  | absent : IsFraction []
  | present {ds : List Char} (h : IsDigits ds) : IsFraction ('.' :: ds)

/-- A mark, perhaps a sign, and digits; or nothing. -/
inductive IsExponent : List Char → Prop
  | absent : IsExponent []
  | present {mark : Char} {sign ds : List Char} (hmark : mark = 'e' ∨ mark = 'E')
      (hsign : sign = [] ∨ sign = ['+'] ∨ sign = ['-']) (h : IsDigits ds) :
      IsExponent (mark :: (sign ++ ds))

/-- A number without a sign, in its parts. -/
def IsUnsigned (l : List Char) : Prop :=
  ∃ whole fraction exponent, IsWhole whole ∧ IsFraction fraction ∧ IsExponent exponent ∧
    l = whole ++ fraction ++ exponent

/-- The characters that a number may go on with. -/
def continuesNumber (c : Char) : Bool := c.isDigit || c = '.' || c = 'e' || c = 'E'

/-- A text in front of which a number ends. -/
def EndsNumber (rest : List Char) : Prop := ∀ c ∈ rest.head?, continuesNumber c = false

/-- A number with or without a sign. -/
inductive IsLexeme : List Char → Prop
  | positive {l : List Char} (h : IsUnsigned l) : IsLexeme l
  | negative {l : List Char} (h : IsUnsigned l) : IsLexeme ('-' :: l)

section

variable {ds rest whole fraction exponent : List Char}

theorem endsNumber_nil : EndsNumber [] := by
  intro c hc
  cases hc

theorem endsNumber_cons {c : Char} (h : continuesNumber c = false) : EndsNumber (c :: rest) := by
  intro d hd
  obtain rfl : c = d := by simpa using hd
  exact h

theorem span_isDigit_append (h : IsDigits ds) (hrest : ∀ c ∈ rest.head?, c.isDigit = false) :
    (ds ++ rest).span Char.isDigit = (ds, rest) := by
  have htake : rest.takeWhile Char.isDigit = [] := by
    cases rest with
    | nil => rfl
    | cons c cs => simp [hrest c rfl]
  have hdrop : rest.dropWhile Char.isDigit = rest := by
    cases rest with
    | nil => rfl
    | cons c cs => simp [hrest c rfl]
  rw [List.span_eq_takeWhile_dropWhile, List.takeWhile_append_of_pos h.isDigit,
    List.dropWhile_append_of_pos h.isDigit, htake, hdrop, List.append_nil]

theorem digits?_append (h : IsDigits ds) (hrest : ∀ c ∈ rest.head?, c.isDigit = false) :
    digits? (ds ++ rest) = some (ds, rest) := by
  rw [digits?, span_isDigit_append h hrest]
  simp [h.ne_nil]

theorem whole?_append (h : IsWhole whole) (hrest : ∀ c ∈ rest.head?, c.isDigit = false) :
    whole? (whole ++ rest) = some (whole, rest) := by
  rw [whole?, digits?_append h.toIsDigits hrest]
  simp only [Option.bind_eq_bind, Option.bind_some]
  split
  · next hlong =>
      have hlength := h.zero_alone rfl
      simp at hlength
  · rfl

theorem fraction?_append (h : IsFraction fraction)
    (hrest : ∀ c ∈ rest.head?, c.isDigit = false ∧ c ≠ '.') :
    fraction? (fraction ++ rest) = some (fraction, rest) := by
  cases h with
  | absent =>
      rw [List.nil_append, fraction?.eq_def]
      split
      · exact absurd rfl (hrest '.' rfl).2
      · rfl
  | present hdigits =>
      have hread := digits?_append hdigits fun c hc => (hrest c hc).1
      simp [fraction?, hread]

theorem exponent?_append (h : IsExponent exponent) (hrest : EndsNumber rest) :
    exponent? (exponent ++ rest) = some (exponent, rest) := by
  cases h with
  | absent =>
      cases rest with
      | nil => rfl
      | cons c cs =>
          have hc := hrest c rfl
          simp only [continuesNumber, Bool.or_eq_false_iff, decide_eq_false_iff_not] at hc
          simp [exponent?, hc.1.2, hc.2]
  | present hmark hsign hdigits =>
      have hread := digits?_append hdigits fun c hc => by
        have hc := hrest c hc
        simp only [continuesNumber, Bool.or_eq_false_iff] at hc
        exact hc.1.1.1
      rcases hsign with rfl | rfl | rfl
      · obtain ⟨d, ds, rfl⟩ := List.exists_cons_of_ne_nil hdigits.ne_nil
        have hdigit := hdigits.isDigit d List.mem_cons_self
        have hplus : d ≠ '+' := by
          rintro rfl
          cases hdigit
        have hminus : d ≠ '-' := by
          rintro rfl
          cases hdigit
        rw [List.cons_append] at hread
        simp [exponent?, hmark, hplus, hminus, hread]
      · simp [exponent?, hmark, hread]
      · simp [exponent?, hmark, hread]

/-- Behind the parts that are read first stands nothing that would belong to them. -/
theorem unsigned?_append {l : List Char} (h : IsUnsigned l) (hrest : EndsNumber rest) :
    unsigned? (l ++ rest) = some (l, rest) := by
  obtain ⟨whole, fraction, exponent, hwhole, hfraction, hexponent, rfl⟩ := h
  have hbehindFraction : ∀ c ∈ (exponent ++ rest).head?, c.isDigit = false ∧ c ≠ '.' := by
    intro c hc
    cases hexponent with
    | absent =>
        have hc := hrest c hc
        simp only [continuesNumber, Bool.or_eq_false_iff, decide_eq_false_iff_not] at hc
        exact ⟨hc.1.1.1, hc.1.1.2⟩
    | present hmark _ _ =>
        obtain rfl : _ = c := by simpa using hc
        rcases hmark with rfl | rfl <;> decide
  have hbehindWhole : ∀ c ∈ (fraction ++ (exponent ++ rest)).head?, c.isDigit = false := by
    intro c hc
    cases hfraction with
    | absent => exact (hbehindFraction c hc).1
    | present _ =>
        obtain rfl : '.' = c := by simpa using hc
        decide
  rw [List.append_assoc, List.append_assoc, unsigned?]
  simp [whole?_append hwhole hbehindWhole, fraction?_append hfraction hbehindFraction,
    exponent?_append hexponent hrest]

theorem lexeme?_of_unsigned? {cs l : List Char} (h : unsigned? cs = some (l, rest)) :
    lexeme? cs = some (l, rest) := by
  rw [lexeme?.eq_def]
  split
  · simp [unsigned?, whole?, digits?, List.span_eq_takeWhile_dropWhile] at h
  · exact h

theorem lexeme?_append {l : List Char} (h : IsLexeme l) (hrest : EndsNumber rest) :
    lexeme? (l ++ rest) = some (l, rest) := by
  cases h with
  | positive h => exact lexeme?_of_unsigned? (unsigned?_append h hrest)
  | negative h =>
      rw [List.cons_append, lexeme?, unsigned?_append h hrest]
      rfl

/-- All characters of a number are digits, signs, the point and the mark of an exponent. -/
theorem IsLexeme.plain {l : List Char} (h : IsLexeme l) :
    ∀ c ∈ l, continuesNumber c = true ∨ c = '-' ∨ c = '+' := by
  have hdigits {ds : List Char} (h : IsDigits ds) : ∀ c ∈ ds, continuesNumber c = true := by
    intro c hc
    simp [continuesNumber, h.isDigit c hc]
  have hunsigned {l : List Char} (h : IsUnsigned l) :
      ∀ c ∈ l, continuesNumber c = true ∨ c = '-' ∨ c = '+' := by
    obtain ⟨whole, fraction, exponent, hwhole, hfraction, hexponent, rfl⟩ := h
    intro c hc
    simp only [List.mem_append] at hc
    rcases hc with (hc | hc) | hc
    · exact .inl (hdigits hwhole.toIsDigits c hc)
    · cases hfraction with
      | absent => cases hc
      | present hds =>
          rcases List.mem_cons.mp hc with rfl | hc
          · exact .inl rfl
          · exact .inl (hdigits hds c hc)
    · cases hexponent with
      | absent => cases hc
      | present hmark hsign hds =>
          simp only [List.mem_cons, List.mem_append] at hc
          rcases hc with rfl | hc | hc
          · rcases hmark with rfl | rfl <;> exact .inl rfl
          · rcases hsign with rfl | rfl | rfl
            · cases hc
            · exact .inr (.inr (List.mem_singleton.mp hc))
            · exact .inr (.inl (List.mem_singleton.mp hc))
          · exact .inl (hdigits hds c hc)
  cases h with
  | positive h => exact hunsigned h
  | negative h =>
      intro c hc
      rcases List.mem_cons.mp hc with rfl | hc
      · exact .inr (.inl rfl)
      · exact hunsigned h c hc

/-- A lexeme begins with a digit or with a sign. -/
theorem IsLexeme.exists_cons {l : List Char} (h : IsLexeme l) :
    ∃ c cs, l = c :: cs ∧ (c.isDigit = true ∨ c = '-') := by
  have hread : lexeme? l = some (l, []) := by
    simpa using lexeme?_append h endsNumber_nil
  rcases l with _ | ⟨c, cs⟩
  · simp [lexeme?, unsigned?, whole?, digits?, List.span_eq_takeWhile_dropWhile] at hread
  refine ⟨c, cs, rfl, ?_⟩
  by_contra hc
  obtain ⟨hdigit, hsign⟩ := not_or.mp hc
  simp [lexeme?, hsign, unsigned?, whole?, digits?, List.span_eq_takeWhile_dropWhile, hdigit]
    at hread

end

section

theorem isDigits_natText (n : Nat) : IsDigits (natText n) where
  ne_nil := Nat.toDigits_ne_nil
  isDigit _ hc := Nat.isDigit_of_mem_toDigits (by decide) (by decide) hc

/-- A positive number is written without a zero in front: its first digit is that of a tenth of it,
as long as the tenth is not zero. -/
theorem head?_natText {n : Nat} (h : n ≠ 0) : (natText n).head? ≠ some '0' := by
  induction n using Nat.strongRecOn with
  | ind n ih =>
      unfold natText
      by_cases hsmall : n < 10
      · rw [Nat.toDigits_of_lt_base hsmall]
        have hdigit : ∀ d < 10, d ≠ 0 → d.digitChar ≠ '0' := by decide
        simpa using hdigit n hsmall h
      · rw [Nat.toDigits_of_base_le (by decide) (by omega),
          List.head?_append_of_ne_nil _ Nat.toDigits_ne_nil]
        exact ih (n / 10) (by omega) (by omega)

theorem isWhole_natText (n : Nat) : IsWhole (natText n) where
  toIsDigits := isDigits_natText n
  zero_alone hzero := by
    obtain rfl | hn := Nat.eq_zero_or_pos n
    · rfl
    · exact absurd hzero (head?_natText (by omega))

theorem isUnsigned_natText (n : Nat) : IsUnsigned (natText n) :=
  ⟨natText n, [], [], isWhole_natText n, .absent, .absent, by simp⟩

theorem isLexeme_intText (n : Int) : IsLexeme (intText n) := by
  unfold intText
  split
  · exact .negative (isUnsigned_natText n.natAbs)
  · exact .positive (isUnsigned_natText n.natAbs)

end

section

variable {digits : List Char}

theorem isDigit_of_mem_zeros {n : Nat} {c : Char} (h : c ∈ Layout.zeros n) : c.isDigit = true := by
  rw [List.eq_of_mem_replicate h]
  rfl

theorem isDigits_zeros_append (n : Nat) (h : IsDigits digits) :
    IsDigits (Layout.zeros n ++ digits) where
  ne_nil := by simp [h.ne_nil]
  isDigit c hc := (List.mem_append.mp hc).elim isDigit_of_mem_zeros (h.isDigit c)

/-- The point of a positional number stands behind the digits, between two of them, or in front of
them behind a zero. -/
theorem isUnsigned_positional (h : IsDigits digits) (hlead : digits.head? ≠ some '0')
    (exponent : Int) : IsUnsigned (Layout.positional digits exponent) := by
  have hpoint : IsFraction ['.', '0'] := .present ⟨by simp, by simp⟩
  unfold Layout.positional
  split
  · have hwhole : IsWhole (digits ++ Layout.zeros exponent.toNat) := by
      refine ⟨⟨by simp [h.ne_nil], ?_⟩, ?_⟩
      · intro c hc
        rcases List.mem_append.mp hc with hdigit | hzero
        · exact h.isDigit c hdigit
        · exact isDigit_of_mem_zeros hzero
      · intro hzero
        rw [List.head?_append_of_ne_nil _ h.ne_nil] at hzero
        exact absurd hzero hlead
    exact ⟨_, _, [], hwhole, hpoint, .absent, by simp⟩
  dsimp only
  split
  · next hnegative hinside =>
      have hbound : ((digits.length : Int) + exponent).toNat < digits.length := by omega
      have hwhole : IsWhole (digits.take ((digits.length : Int) + exponent).toNat) := by
        refine ⟨⟨?_, fun c hc => h.isDigit c (List.mem_of_mem_take hc)⟩, ?_⟩
        · rw [ne_eq, List.take_eq_nil_iff, not_or]
          exact ⟨by omega, h.ne_nil⟩
        · intro hzero
          rw [List.head?_take, if_neg (by omega)] at hzero
          exact absurd hzero hlead
      have hfraction : IsDigits (digits.drop ((digits.length : Int) + exponent).toNat) := by
        refine ⟨?_, fun c hc => h.isDigit c (List.mem_of_mem_drop hc)⟩
        rw [ne_eq, List.drop_eq_nil_iff]
        omega
      exact ⟨_, _, [], hwhole, .present hfraction, .absent, by simp⟩
  · have hwhole : IsWhole ['0'] := ⟨⟨by simp, by simp⟩, fun _ => rfl⟩
    have hfraction := isDigits_zeros_append (-((digits.length : Int) + exponent)).toNat h
    exact ⟨_, _, [], hwhole, .present hfraction, .absent, by simp⟩

theorem isUnsigned_scientific (h : IsDigits digits) (first : Int) :
    IsUnsigned (Layout.scientific digits first) := by
  rcases digits with _ | ⟨d, ds⟩
  · exact absurd rfl h.ne_nil
  have hwhole : IsWhole [d] :=
    ⟨⟨by simp, fun c hc => h.isDigit c (by simp_all)⟩, fun _ => rfl⟩
  have hfraction : IsFraction (if ds.isEmpty then [] else '.' :: ds) := by
    cases ds with
    | nil => exact .absent
    | cons e es => exact .present ⟨by simp, fun c hc => h.isDigit c (List.mem_cons_of_mem _ hc)⟩
  have hexponent : IsExponent
      ('e' :: ([if first < 0 then '-' else '+'] ++ natText first.natAbs)) := by
    refine .present (.inl rfl) ?_ (isDigits_natText _)
    split
    · exact .inr (.inr rfl)
    · exact .inr (.inl rfl)
  exact ⟨_, _, _, hwhole, hfraction, hexponent, by simp [Layout.scientific]⟩

theorem isUnsigned_write (layout : Layout) (d : Decimal) : IsUnsigned (layout.write d) := by
  unfold Layout.write
  split
  · refine ⟨['0'], ['.', '0'], [], ⟨⟨by simp, by simp⟩, fun _ => rfl⟩, ?_, .absent, rfl⟩
    exact .present ⟨by simp, by simp⟩
  · next hdigits =>
      simp only
      split
      · exact isUnsigned_positional (isDigits_natText _) (head?_natText hdigits) _
      · exact isUnsigned_scientific (isDigits_natText _) _

/-- Every finite number is written as a lexeme. -/
theorem isLexeme_text? {x : Single} {cs : List Char} (h : x.text? = some cs) : IsLexeme cs := by
  simp only [Single.text?, Option.map_eq_some_iff] at h
  obtain ⟨m, _, rfl⟩ := h
  have hwritten : IsUnsigned (Layout.single.write (shortest .single m)) :=
    isUnsigned_write _ _
  split
  · exact .negative hwritten
  · exact .positive hwritten

end

section

/-- What the digits of a number come to. -/
theorem natValue_natText (n : Nat) : natValue (natText n) = n := by
  have hvalue : natValue (natText n) = Nat.ofDigitChars 10 (natText n) 0 := by
    unfold natValue Nat.ofDigitChars
    congr 1
    funext value c
    rw [Nat.mul_comm]
    rfl
  rw [hvalue, natText, Nat.ofDigitChars_toDigits (by decide) (by decide)]

theorem parts_digits {ds : List Char} (h : IsDigits ds) : Numeral.parts ds = (ds, none, none) := by
  have hspan : (ds ++ []).span Char.isDigit = (ds, []) := span_isDigit_append h (by simp)
  rw [List.append_nil] at hspan
  rw [Numeral.parts, hspan]

theorem ofLexeme?_natText {n : Nat} (h : n < wordLimit) :
    Numeral.ofLexeme? (natText n) = some (.natural n) := by
  rw [Numeral.ofLexeme?.eq_def]
  split
  · next cs hcs =>
      have hsign : '-'.isDigit = true := (isDigits_natText n).isDigit '-' (by simp [hcs])
      contradiction
  · simp [Numeral.ofUnsigned?, parts_digits (isDigits_natText n), natValue_natText, h]

theorem ofLexeme?_neg_natText {n : Nat} (hpos : 0 < n) (h : n ≤ wordLimit / 2) :
    Numeral.ofLexeme? ('-' :: natText n) = some (.negative (-n)) := by
  simp [Numeral.ofLexeme?, Numeral.ofUnsigned?, parts_digits (isDigits_natText n),
    natValue_natText, hpos, h]

/-- A natural number below a limit of sixty-four bits is read back. -/
theorem readNatural_ofNat {n limit : Nat} (expected : String) (h : n < limit)
    (hlimit : limit ≤ wordLimit) : readNatural limit expected (ofNat n) = .ok n := by
  have hword : n < wordLimit := by omega
  simp [readNatural, ofNat, ofLexeme?_natText hword, h]

/-- An integer of sixty-four bits is read back. -/
theorem readInteger_ofInt {n : Int} (hleast : -(wordLimit / 2 : Nat) ≤ n)
    (hgreatest : n < (wordLimit / 2 : Nat)) : readInteger (ofInt n) = .ok n := by
  by_cases hsign : n < 0
  · have hread := ofLexeme?_neg_natText (n := n.natAbs) (by omega) (by omega)
    have hvalue : -(n.natAbs : Int) = n := by omega
    simp only [readInteger, ofInt, intText, if_pos hsign, hread, hvalue]
  · have hhalf : n.natAbs < wordLimit / 2 := by omega
    have hread := ofLexeme?_natText (n := n.natAbs) (by omega)
    have hvalue : (n.natAbs : Int) = n := by omega
    simp only [readInteger, ofInt, intText, if_neg hsign, hread, if_pos hhalf, hvalue]

end

end TrialView.Json
