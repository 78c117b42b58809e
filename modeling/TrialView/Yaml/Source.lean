import TrialView.Number.Double
import TrialView.Schema
import TrialView.Yaml.Node

/-!
YAML trees as a source of records. A scalar has no kind of its own: what it stands for depends on
what is asked for. Only plain scalars are numbers, booleans or null; any scalar is a text. An empty
plain scalar also stands for an empty sequence and for a record without members. What is wrong with
a document is not told apart.
-/

namespace TrialView.Yaml

open Number

def isDigitOf (radix : Nat) (c : Char) : Bool :=
  ((hexValue? c).map fun d => decide (d < radix)).getD false

/-- A natural number in digits alone. -/
def digits? (radix : Nat) (cs : List Char) : Option Nat :=
  if !cs.isEmpty && cs.all (isDigitOf radix) then
    some (cs.foldl (fun n c => n * radix + (hexValue? c).getD 0) 0)
  else none

/-- A decimal number is not written with zeros in front. -/
def decimal? (cs : List Char) : Option Nat :=
  match cs with
  | '0' :: _ :: _ => none
  | _ => digits? 10 cs

/-- A natural number: decimal, or in base sixteen, eight or two with the opening that says so. -/
def magnitude? : List Char → Option Nat
  | '0' :: 'x' :: cs => digits? 16 cs
  | '0' :: 'o' :: cs => digits? 8 cs
  | '0' :: 'b' :: cs => digits? 2 cs
  | cs => decimal? cs

def natural? : List Char → Option Nat
  | '+' :: cs => magnitude? cs
  | cs => magnitude? cs

def integer? : List Char → Option Int
  | '+' :: cs => (magnitude? cs).map Int.ofNat
  | '-' :: cs => (magnitude? cs).map fun n => -(Int.ofNat n)
  | cs => (magnitude? cs).map Int.ofNat

/-- The digits of a decimal number: those before and those behind the point. -/
def mantissa (cs : List Char) : List Char × List Char × List Char :=
  let (whole, rest) := cs.span Char.isDigit
  match rest with
  | '.' :: rest =>
      let (fraction, rest) := rest.span Char.isDigit
      (whole, fraction, rest)
  | _ => (whole, [], rest)

/-- The exponent at the end of a decimal number; zero if nothing is there. -/
def exponent? : List Char → Option Int
  | [] => some 0
  | e :: cs =>
      if e = 'e' || e = 'E' then
        match cs with
        | '+' :: cs => (digits? 10 cs).map Int.ofNat
        | '-' :: cs => (digits? 10 cs).map fun n => -(Int.ofNat n)
        | _ => (digits? 10 cs).map Int.ofNat
      else none

/-- The double nearest to a decimal number without a sign. -/
def real? (cs : List Char) : Option Magnitude := do
  let (whole, fraction, rest) := mantissa cs
  let n ← digits? 10 (whole ++ fraction)
  Double.nearest? n ((← exponent? rest) - fraction.length)

def isInfinity (cs : List Char) : Bool :=
  [".inf", ".Inf", ".INF"].any (·.toList == cs)

def isNan (cs : List Char) : Bool :=
  [".nan", ".NaN", ".NAN"].any (·.toList == cs)

def single? (cs : List Char) : Option Single :=
  if isNan cs then some .nan
  else
    let (negative, cs) :=
      match cs with
      | '-' :: cs => (true, cs)
      | '+' :: cs => (false, cs)
      | _ => (false, cs)
    if isInfinity cs then some (.infinity negative)
    else (real? cs).map fun m => Double.toSingle ⟨negative, m⟩

def bool? (s : String) : Option Bool :=
  if s ∈ ["true", "True", "TRUE"] then some true
  else if s ∈ ["false", "False", "FALSE"] then some false
  else none

def isNull (s : String) : Bool := s ∈ ["", "~", "null", "Null", "NULL"]

def orFault {α : Type} (a? : Option α) : Except Fault α :=
  match a? with
  | some a => .ok a
  | none => .error .form

namespace Node

/-- The text of a plain scalar. -/
def plain? : Node → Option String
  | .scalar true s => some s
  | _ => none

/-- The text of any scalar. -/
def text? : Node → Option String
  | .scalar _ s => some s
  | _ => none

def within (limit n : Nat) : Option Nat := if n < limit then some n else none

def word? (n : Int) : Option Int :=
  if Int64.minValue.toInt ≤ n ∧ n ≤ Int64.maxValue.toInt then some n else none

def items? : Node → Option (List Node)
  | .sequence items => some items
  | .scalar true "" => some []
  | _ => none

def members? : Node → Option (List (Except Fault String × Node))
  | .mapping pairs => some (pairs.map fun (k, v) => (orFault k.text?, v))
  | .scalar true "" => some []
  | _ => none

end Node

instance : Source Node where
  text v := orFault v.text?
  bool v := orFault (v.plain?.bind bool?)
  natural limit _ v := orFault do Node.within limit (← natural? (← v.plain?).toList)
  integer v := orFault do Node.word? (← integer? (← v.plain?).toList)
  single v := orFault do single? (← v.plain?).toList
  items v := orFault v.items?
  shape _ v := .keyed <$> orFault v.members?
  choice names v := orFault (v.text?.bind fun s => if s ∈ names then some s else none)
  isAbsent v := (v.plain?.map isNull).getD false
  skip _ := .ok ()

/-- Reads the document of a text. -/
def decode {α : Type} (read : Node → Except Fault α) (cs : List Char) : Except Fault α := do
  read (← orFault (Node.parse? cs))

/-- How texts in this notation are read. There is more to the notation than configurations and
parameters are written with, so the reader is left open. It is given how a value is taken from a
document of any kind, and says what value a text holds, or why it holds none. -/
class Reader where
  decode {α : Type} (read : {V : Type} → [Source V] → V → Except Fault α) (cs : List Char) :
    Except Fault α

/-- The reader of texts without anchors, aliases, tags, directives and block scalars. -/
instance plainReader : Reader := ⟨fun read => decode read⟩

end TrialView.Yaml
