import TrialView.Number.Shortest

/-!
How decimals are written. A layout says between which exponents of the first digit a number is
positional; outside of them it is written as one digit, a point and the rest, and a signed
exponent. A positional number has at least one digit on each side of the point.
-/

namespace TrialView.Number

def natText (n : Nat) : List Char := Nat.toDigits 10 n

def intText (n : Int) : List Char :=
  if n < 0 then '-' :: natText n.natAbs else natText n.natAbs

/-- Positional notation is for numbers whose first digit stands at `least` to `greatest`. -/
structure Layout where
  least : Int
  greatest : Int

namespace Layout

def single : Layout := ⟨-6, 12⟩

def double : Layout := ⟨-5, 15⟩

def zeros (n : Nat) : List Char := List.replicate n '0'

/-- Digits and the exponent of the last one, with a point. -/
def positional (digits : List Char) (exponent : Int) : List Char :=
  let point := (digits.length : Int) + exponent
  if 0 ≤ exponent then digits ++ zeros exponent.toNat ++ ['.', '0']
  else if 0 < point then digits.take point.toNat ++ '.' :: digits.drop point.toNat
  else '0' :: '.' :: (zeros (-point).toNat ++ digits)

def scientific (digits : List Char) (first : Int) : List Char :=
  let tail := digits.drop 1
  let fraction := if tail.isEmpty then [] else '.' :: tail
  digits.take 1 ++ fraction ++ 'e' :: (if first < 0 then '-' else '+') :: natText first.natAbs

def write (layout : Layout) (d : Decimal) : List Char :=
  if d.digits = 0 then ['0', '.', '0']
  else
    let digits := natText d.digits
    let first := (digits.length : Int) - 1 + d.exponent
    if layout.least ≤ first ∧ first ≤ layout.greatest then positional digits d.exponent
    else scientific digits first

end Layout

/-- A magnitude with a fixed number of decimal places, a half going to the even digit. -/
def fixedText (places : Nat) (m : Magnitude) : List Char :=
  let unit := Nat.pow 10 places
  let n := roundDivEven (m.numerator * unit) m.denominator
  let digits := natText (n % unit)
  natText (n / unit) ++ '.' :: (Layout.zeros (places - digits.length) ++ digits)

end TrialView.Number
