/-!
Rounding to a binary floating-point format in exact arithmetic. A magnitude is `m * 2 ^ e`; a
format says how many bits `m` may have, how small `e` may be, and where values overflow. `round?`
takes the quotient of two natural numbers to the nearest magnitude of a format, a tie to the even
one.
-/

namespace TrialView.Number

/-- The nearest natural number to `num / den`; a half goes to the even neighbour. -/
def roundDivEven (num den : Nat) : Nat :=
  let q := num / den
  let r := num % den
  if 2 * r < den then q
  else if den < 2 * r then q + 1
  else if q % 2 = 0 then q else q + 1

/-- The value `significand * 2 ^ exponent`. -/
structure Magnitude where
  significand : Nat
  exponent : Int
deriving Repr, DecidableEq

/-- Significands have at most `precision` bits, exponents are at least `minExponent`, and the first
value out of reach is `2 ^ overflow`. -/
structure Format where
  precision : Nat
  minExponent : Int
  overflow : Int

namespace Format

def single : Format := ⟨24, -149, 128⟩

def double : Format := ⟨53, -1074, 1024⟩

end Format

/-- The largest `k` with `2 ^ k ≤ num / den`, both numbers being positive. -/
def log2Quotient (num den : Nat) : Int :=
  let k : Int := (num.log2 : Int) - (den.log2 : Int)
  if num * Nat.pow 2 (-k).toNat < den * Nat.pow 2 k.toNat then k - 1 else k

namespace Magnitude

def zero : Magnitude := ⟨0, 0⟩

def isZero (m : Magnitude) : Bool := m.significand = 0

/-- Numerator and denominator of the value. -/
def numerator (m : Magnitude) : Nat := m.significand * Nat.pow 2 m.exponent.toNat

def denominator (m : Magnitude) : Nat := Nat.pow 2 (-m.exponent).toNat

/-- The magnitude of `format` nearest to `num / den`, or nothing if that is past its range. -/
def round? (format : Format) (num den : Nat) : Option Magnitude :=
  if num = 0 then some ⟨0, format.minExponent⟩
  else
    let e := max format.minExponent (log2Quotient num den - (format.precision - 1))
    let m := roundDivEven (num * Nat.pow 2 (-e).toNat) (den * Nat.pow 2 e.toNat)
    let r : Magnitude :=
      if m < Nat.pow 2 format.precision then ⟨m, e⟩
      else ⟨Nat.pow 2 (format.precision - 1), e + 1⟩
    if format.overflow < r.exponent + format.precision then none else some r

def ofNat? (format : Format) (n : Nat) : Option Magnitude :=
  round? format n 1

/-- The magnitude in another format. -/
def convert? (format : Format) (m : Magnitude) : Option Magnitude :=
  round? format m.numerator m.denominator

def add? (format : Format) (a b : Magnitude) : Option Magnitude :=
  round? format (a.numerator * b.denominator + b.numerator * a.denominator)
    (a.denominator * b.denominator)

def mul? (format : Format) (a b : Magnitude) : Option Magnitude :=
  round? format (a.numerator * b.numerator) (a.denominator * b.denominator)

/-- The quotient by a magnitude that is not zero. -/
def div? (format : Format) (a b : Magnitude) : Option Magnitude :=
  round? format (a.numerator * b.denominator) (a.denominator * b.numerator)

end Magnitude

end TrialView.Number
