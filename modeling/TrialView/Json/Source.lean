import TrialView.Json.Numeral
import TrialView.Json.Reader
import TrialView.Schema
import TrialView.Text.Quoted

/-!
JSON trees as a source of records. A value of the wrong kind is a fault in the data and is described
by what it is; where the tree is broken, and where a string or a number stands for nothing, the
fault is one of form.
-/

namespace TrialView.Json

open Number

/-- What a value is, for a message. -/
def kind : Json → Except Fault String
  | .null => .ok "null"
  | .bool b => .ok s!"boolean `{b}`"
  | .number l =>
      match Numeral.ofLexeme? l with
      | none => .error .form
      | some (.natural n) => .ok s!"integer `{n}`"
      | some (.negative n) => .ok s!"integer `{n}`"
      | some (.real x) => .ok s!"floating point `{String.ofList x.text}`"
  | .text s => .ok s!"string {String.ofList (Text.quote s.toList)}"
  | .array _ => .ok "sequence"
  | .object _ => .ok "map"
  | .unpaired | .broken => .error .form

def mismatch {α : Type} (v : Json) (expected : String) : Except Fault α := do
  throw (.data s!"invalid type: {← v.kind}, expected {expected}")

/-- An integer that is not in the range asked for. -/
def outOfRange {α : Type} (n : Int) (expected : String) : Except Fault α :=
  .error (.data s!"invalid value: integer `{n}`, expected {expected}")

def readText : Json → Except Fault String
  | .text s => .ok s
  | v => v.mismatch "a string"

def readBool : Json → Except Fault Bool
  | .bool b => .ok b
  | v => v.mismatch "a boolean"

def readNatural (limit : Nat) (expected : String) (v : Json) : Except Fault Nat :=
  match v with
  | .number l =>
      match Numeral.ofLexeme? l with
      | some (.natural n) => if n < limit then .ok n else outOfRange n expected
      | some (.negative n) => outOfRange n expected
      | _ => v.mismatch expected
  | _ => v.mismatch expected

def readInteger (v : Json) : Except Fault Int :=
  match v with
  | .number l =>
      match Numeral.ofLexeme? l with
      | some (.natural n) => if n < wordLimit / 2 then .ok n else outOfRange n "i64"
      | some (.negative n) => .ok n
      | _ => v.mismatch "i64"
  | _ => v.mismatch "i64"

def readSingle (v : Json) : Except Fault Single :=
  match v with
  | .number l =>
      match Numeral.ofLexeme? l with
      | some n => .ok n.toSingle
      | none => .error .form
  | _ => v.mismatch "f32"

def readItems : Json → Except Fault (List Json)
  | .array items => .ok items
  | v => v.mismatch "a sequence"

/-- The name of a member. -/
def memberName : Json → Except Fault String
  | .text s => .ok s
  | _ => .error .form

def readShape (expected : String) : Json → Except Fault (Shape Json)
  | .object members => .ok (.keyed (members.map fun (k, v) => (memberName k, v)))
  | .array items => .ok (.listed items)
  | v => v.mismatch expected

/-- The names to choose from, for a message. -/
def choices (names : List String) : String :=
  match names with
  | [a, b] => s!"`{a}` or `{b}`"
  | _ => "one of " ++ String.intercalate ", " (names.map fun n => s!"`{n}`")

def checkChoice (names : List String) (s : String) : Except Fault String :=
  if s ∈ names then .ok s
  else .error (.data s!"unknown variant `{s}`, expected {choices names}")

/-- A choice is a string, or an object with the name as its one key and null as the value. -/
def readChoice (names : List String) : Json → Except Fault String
  | .text s => checkChoice names s
  | .object ((.text s, v) :: rest) => do
      let s ← checkChoice names s
      match v, rest with
      | .null, [] => pure s
      | .null, _ :: _ => throw .form
      | _, _ => v.mismatch "unit"
  | .object ((k, _) :: _) => k.mismatch "variant identifier"
  | _ => .error .form

instance : Source Json where
  text := readText
  bool := readBool
  natural := readNatural
  integer := readInteger
  single := readSingle
  items := readItems
  shape := readShape
  choice := readChoice
  isAbsent
    | .null => true
    | _ => false
  skip v := if v.isWhole then .ok () else .error .form

/-- Reads a text from which nothing but white space may be left over. -/
def decode {α : Type} (read : Json → Except Fault α) (cs : List Char) : Except Fault α := do
  let (v, ends) := parse cs
  let a ← read v
  if ends then pure a else throw .form

end TrialView.Json
