import TrialView.Number.Layout

/-!
Single-precision numbers as their thirty-two bits: a sign, eight bits of exponent and twenty-three
of significand. Two of them are equal when their bits are, so equality tells the two zeros apart
and holds of a number that is not a number.
-/

namespace TrialView.Number

structure Single where
  bits : UInt32
deriving Repr, DecidableEq, Inhabited

namespace Single

def zero : Single := ⟨0⟩

def isNegative (x : Single) : Bool := 0x80000000 ≤ x.bits.toNat

def exponentField (x : Single) : Nat := x.bits.toNat / 0x800000 % 0x100

def fraction (x : Single) : Nat := x.bits.toNat % 0x800000

/-- All exponent bits are set in the infinities and in what is not a number. -/
def isFinite (x : Single) : Bool := x.exponentField ≠ 255

/-- What the number stands for apart from its sign. -/
def magnitude? (x : Single) : Option Magnitude :=
  if x.exponentField = 255 then none
  else if x.exponentField = 0 then some ⟨x.fraction, -149⟩
  else some ⟨x.fraction + 0x800000, (x.exponentField : Int) - 150⟩

def withSign (negative : Bool) (bits : Nat) : Single :=
  ⟨UInt32.ofNat (bits + if negative then 0x80000000 else 0)⟩

def infinity (negative : Bool) : Single := withSign negative (255 * 0x800000)

def nan : Single := ⟨0x7FC00000⟩

/-- Packs a magnitude of the single format; nothing stands for one past its range. -/
def ofMagnitude (negative : Bool) : Option Magnitude → Single
  | none => infinity negative
  | some m => withSign negative ((m.exponent + 149).toNat * 0x800000 + m.significand)

def ofInt (n : Int) : Single :=
  ofMagnitude (n < 0) (Magnitude.ofNat? .single n.natAbs)

/-- The text of a finite number: the fewest digits that read back. -/
def text? (x : Single) : Option (List Char) :=
  x.magnitude?.map fun m =>
    let digits := Layout.single.write (shortest .single m)
    if x.isNegative then '-' :: digits else digits

end Single

end TrialView.Number
