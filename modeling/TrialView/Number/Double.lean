import TrialView.Number.Single

/-!
Finite double-precision numbers. They arise between a decimal text and the single-precision number
that it stands for, which is rounded twice in this way, and in the average time of a tally.
-/

namespace TrialView.Number

structure Double where
  negative : Bool
  magnitude : Magnitude
deriving Repr, DecidableEq

namespace Double

/-- The text with the fewest digits that read back. -/
def text (x : Double) : List Char :=
  let digits := Layout.double.write (shortest .double x.magnitude)
  if x.negative then '-' :: digits else digits

def toSingle (x : Double) : Single :=
  Single.ofMagnitude x.negative (x.magnitude.convert? .single)

/-- The greatest power of ten within the range of doubles. -/
def maxPower : Nat := 308

def powerOfTen (k : Nat) : Magnitude :=
  (Magnitude.ofNat? .double (Nat.pow 10 k)).getD .zero

def quotient (m : Magnitude) (k : Nat) : Magnitude :=
  (m.div? .double (powerOfTen k)).getD .zero

/-- Divides by `10 ^ k`, by the greatest power as long as `k` is beyond it. Three divisions by that
power leave zero, so `steps` need not be more. -/
def scaleDown : Nat → Magnitude → Nat → Magnitude
  | 0, m, k => quotient m (min k maxPower)
  | steps + 1, m, k =>
      if k ≤ maxPower then quotient m k else scaleDown steps (quotient m maxPower) (k - maxPower)

/-- `significand * 10 ^ exponent` in double arithmetic: the significand is rounded first, and then
multiplied or divided by rounded powers of ten. Nothing if the product is past the range. -/
def scaled? (significand : Nat) (exponent : Int) : Option Magnitude := do
  let m ← Magnitude.ofNat? .double significand
  if exponent < 0 then some (scaleDown 3 m exponent.natAbs)
  else if m.isZero then some m
  else if exponent.toNat ≤ maxPower then m.mul? .double (powerOfTen exponent.toNat)
  else none

/-- The double nearest to `significand * 10 ^ exponent`, or nothing past the range. Values whose
first digit stands above `10 ^ 309` are out of range, and those below `10 ^ -325` round to zero. -/
def nearest? (significand : Nat) (exponent : Int) : Option Magnitude :=
  let first := (Decimal.digitCount significand : Int) + exponent
  if significand = 0 ∨ first < -330 then some .zero
  else if 310 < first then none
  else
    Magnitude.round? .double (significand * Nat.pow 10 exponent.toNat)
      (Nat.pow 10 (-exponent).toNat)

end Double

end TrialView.Number
