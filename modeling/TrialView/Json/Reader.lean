import TrialView.Json.Token
import TrialView.Json.Value

/-!
From tokens to trees. Where the tokens do not go on as JSON does, the tree gets the leaf `broken`
and ends: an array or object around it holds what came before. A place for a member name keeps what
stands there, whatever it is.
-/

namespace TrialView.Json

/-- Stands for the rest of a text that has come to a broken place. -/
abbrev Rest := Option (List Token)

mutual

/-- Reads a value; `none` as the rest means that the text broke off inside of it. -/
def value : Nat → List Token → Json × Rest
  | 0, _ => (.broken, none)
  | _ + 1, [] => (.broken, none)
  | fuel + 1, t :: ts =>
      match t with
      | .null => (.null, some ts)
      | .bool b => (.bool b, some ts)
      | .number l => (.number l, some ts)
      | .text s => (.text s, some ts)
      | .unpaired => (.unpaired, some ts)
      | .openBracket =>
          match ts with
          | .closeBracket :: rest => (.array [], some rest)
          | _ =>
              let (vs, rest) := items fuel ts
              (.array vs, rest)
      | .openBrace =>
          match ts with
          | .closeBrace :: rest => (.object [], some rest)
          | _ =>
              let (ms, rest) := members fuel ts
              (.object ms, rest)
      | _ => (.broken, none)

/-- Reads the items of an array, at least one, and the bracket that closes it. -/
def items : Nat → List Token → List Json × Rest
  | 0, _ => ([.broken], none)
  | fuel + 1, ts =>
      match value fuel ts with
      | (v, some (.comma :: rest)) =>
          let (vs, rest) := items fuel rest
          (v :: vs, rest)
      | (v, some (.closeBracket :: rest)) => ([v], some rest)
      | (v, some _) => ([v, .broken], none)
      | (v, none) => ([v], none)

/-- Reads the members of an object, at least one, and the brace that closes it. -/
def members : Nat → List Token → List (Json × Json) × Rest
  | 0, _ => ([(.broken, .broken)], none)
  | fuel + 1, ts =>
      match value fuel ts with
      | (k, some (.colon :: rest)) =>
          match value fuel rest with
          | (v, some (.comma :: rest)) =>
              let (ms, rest) := members fuel rest
              ((k, v) :: ms, rest)
          | (v, some (.closeBrace :: rest)) => ([(k, v)], some rest)
          | (v, some _) => ([(k, v), (.broken, .broken)], none)
          | (v, none) => ([(k, v)], none)
      | (k, _) => ([(k, .broken)], none)

end

/-- The tree of a text, and whether the text ends with it. -/
def parse (cs : List Char) : Json × Bool :=
  let ts := Token.read cs
  match value (2 * ts.length + 1) ts with
  | (v, some []) => (v, true)
  | (v, _) => (v, false)

end TrialView.Json
