import TrialView.Number.Rounding

/-!
Shortest decimal digits. Among the decimals that a format reads back as a given magnitude,
`shortest` picks one with the fewest digits, and of those the one nearest to the magnitude. The
reals that round to a magnitude form an interval around it, with its ends included when the
significand is even; a grid of decimals meets the interval if and only if one of the two grid points
next to the magnitude lies in it, so only these two are tried on each grid.
-/

namespace TrialView.Number

/-- The value `digits * 10 ^ exponent`. -/
structure Decimal where
  digits : Nat
  exponent : Int
deriving Repr, DecidableEq

namespace Decimal

/-- How many decimal digits a natural number has; zero has none. -/
def digitCount (n : Nat) : Nat :=
  if n = 0 then 0 else (Nat.toDigits 10 n).length

/-- The exponent of the first digit of `num / den`, both being positive. -/
def firstExponent (num den : Nat) : Int :=
  if den ≤ num then (digitCount (num / den) : Int) - 1
  else -(digitCount ((den + num - 1) / num - 1) : Int)

/-- Takes zeros off the end of the digits; `fuel` bounds how many. -/
def strip : Nat → Decimal → Decimal
  | 0, d => d
  | fuel + 1, d =>
      if d.digits ≠ 0 ∧ d.digits % 10 = 0 then strip fuel ⟨d.digits / 10, d.exponent + 1⟩ else d

end Decimal

/-- The reals that round to one magnitude: numerators over a common denominator. -/
structure Interval where
  low : Nat
  value : Nat
  high : Nat
  denominator : Nat
  closed : Bool

namespace Interval

/-- Below a power of two the neighbours lie half as far apart. -/
def of (format : Format) (m : Magnitude) : Interval :=
  let up := Nat.pow 2 (m.exponent - 2).toNat
  let below :=
    if m.significand = Nat.pow 2 (format.precision - 1) ∧ format.minExponent < m.exponent then 1
    else 2
  { low := (4 * m.significand - below) * up
    value := 4 * m.significand * up
    high := (4 * m.significand + 2) * up
    denominator := Nat.pow 2 (2 - m.exponent).toNat
    closed := m.significand % 2 = 0 }

/-- Whether `digits * 10 ^ exponent` lies in the interval. -/
def contains (i : Interval) (d : Decimal) : Bool :=
  let x := d.digits * Nat.pow 10 d.exponent.toNat * i.denominator
  let scale := Nat.pow 10 (-d.exponent).toNat
  if i.closed then i.low * scale ≤ x && x ≤ i.high * scale
  else i.low * scale < x && x < i.high * scale

/-- Of two neighbouring grid points the one nearer to the value; a tie goes to the even one. -/
def nearer (i : Interval) (a b : Decimal) : Decimal :=
  let scale := Nat.pow 10 (-a.exponent).toNat
  let unit := Nat.pow 10 a.exponent.toNat * i.denominator
  let twice := 2 * (i.value * scale)
  let middle := (a.digits + b.digits) * unit
  if twice < middle then a
  else if middle < twice then b
  else if a.digits % 2 = 0 then a else b

/-- The point of the interval on the grid `10 ^ exponent`, if there is one. -/
def onGrid? (i : Interval) (exponent : Int) : Option Decimal :=
  let lower :=
    (i.value * Nat.pow 10 (-exponent).toNat) / (i.denominator * Nat.pow 10 exponent.toNat)
  let a : Decimal := ⟨lower, exponent⟩
  let b : Decimal := ⟨lower + 1, exponent⟩
  match i.contains a, i.contains b with
  | true, true => some (i.nearer a b)
  | true, false => some a
  | false, true => some b
  | false, false => none

/-- Tries grids from coarse to fine, the first at `exponent`. -/
def search (i : Interval) : Nat → Int → Option Decimal
  | 0, _ => none
  | grids + 1, exponent =>
      match i.onGrid? exponent with
      | some d => some d
      | none => i.search grids (exponent - 1)

end Interval

/-- Seventeen digits tell all doubles apart, and nine all singles. -/
def maxDigits : Nat := 17

/-- The shortest digits that `format` reads back as a magnitude of its own. -/
def shortest (format : Format) (m : Magnitude) : Decimal :=
  if m.isZero then ⟨0, 0⟩
  else
    let i := Interval.of format m
    match i.search (maxDigits + 1) (Decimal.firstExponent i.value i.denominator) with
    | some d => d.strip (maxDigits + 1)
    | none => ⟨0, 0⟩

end TrialView.Number
