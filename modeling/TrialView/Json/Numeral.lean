import TrialView.Number.Double

/-!
What the numbers of a JSON text stand for. A lexeme without point and exponent is an integer if it
fits sixty-four bits and is not a negative zero. Every other lexeme is a double: its leading digits,
as many as fit sixty-four bits, scaled by a power of ten for the digits left out, the point and the
exponent.
-/

namespace TrialView.Json

open Number

/-- The first natural number that does not fit sixty-four bits. -/
def wordLimit : Nat := UInt64.size

def digitValue (c : Char) : Nat := c.toNat - '0'.toNat

/-- The leading digits of a whole number, and how many more follow once they are full. -/
def leading (cs : List Char) : Nat × Nat :=
  cs.foldl (fun (n, dropped) c =>
    if dropped = 0 ∧ n * 10 + digitValue c < wordLimit then (n * 10 + digitValue c, 0)
    else (n, dropped + 1)) (0, 0)

/-- Appends the digits of a fraction as long as they fit, and counts them. -/
def appendFraction : Nat → List Char → Nat × Nat
  | n, [] => (n, 0)
  | n, c :: cs =>
      if n * 10 + digitValue c < wordLimit then
        let (m, used) := appendFraction (n * 10 + digitValue c) cs
        (m, used + 1)
      else (n, 0)

def natValue (cs : List Char) : Nat :=
  cs.foldl (fun n c => n * 10 + digitValue c) 0

/-- The number after the mark of an exponent, with its sign. -/
def exponentValue : List Char → Int
  | '-' :: cs => -(natValue cs : Int)
  | '+' :: cs => natValue cs
  | cs => natValue cs

inductive Numeral where
  | natural (n : Nat)
  | negative (n : Int)
  | real (x : Double)
deriving Repr, DecidableEq

namespace Numeral

/-- The parts of a lexeme without its sign: digits before the point, digits after it, exponent. -/
def parts (cs : List Char) : List Char × Option (List Char) × Option (List Char) :=
  let (whole, rest) := cs.span Char.isDigit
  let (fraction, rest) :=
    match rest with
    | '.' :: cs =>
        let (ds, tail) := cs.span Char.isDigit
        (some ds, tail)
    | _ => (none, rest)
  match rest with
  | _ :: es => (whole, fraction, some es)
  | [] => (whole, fraction, none)

/-- The double that a lexeme stands for, unless it is past the range. -/
def real? (negative : Bool) (whole fraction exponent : List Char) : Option Numeral :=
  let (n, dropped) := leading whole
  let (n, used) := appendFraction n fraction
  let e := (dropped : Int) - used + exponentValue exponent
  (Double.scaled? n e).map fun m => .real ⟨negative, m⟩

def ofUnsigned? (negative : Bool) (cs : List Char) : Option Numeral :=
  match parts cs with
  | (whole, none, none) =>
      let n := natValue whole
      if !negative && n < wordLimit then some (.natural n)
      else if negative && 0 < n && n ≤ wordLimit / 2 then some (.negative (-n))
      else real? negative whole [] []
  | (whole, fraction, exponent) =>
      real? negative whole (fraction.getD []) (exponent.getD [])

/-- What a lexeme stands for; nothing if that is past the range of doubles. -/
def ofLexeme? : List Char → Option Numeral
  | '-' :: cs => ofUnsigned? true cs
  | cs => ofUnsigned? false cs

def toSingle : Numeral → Single
  | .natural n => Single.ofInt n
  | .negative n => Single.ofInt n
  | .real x => x.toSingle

end Numeral

end TrialView.Json
