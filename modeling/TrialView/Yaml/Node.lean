import TrialView.Yaml.Token

/-!
YAML documents as trees. A text holds at most one document; one without any content counts as an
empty plain scalar, as does every value that is left out.
-/

namespace TrialView.Yaml

inductive Node where
  | scalar (isPlain : Bool) (text : String)
  | sequence (items : List Node)
  | mapping (pairs : List (Node × Node))
deriving Repr

namespace Node

def empty : Node := .scalar true ""

/-- Tokens before which the value of an item or a key in a block is left out. -/
def endsInBlock : List Token → Bool
  | .entry :: _ | .blockEnd :: _ => true
  | _ => false

def endsPair : List Token → Bool
  | .key :: _ | .value :: _ | .blockEnd :: _ => true
  | _ => false

def endsInFlow (close : Token) : List Token → Bool
  | t :: _ => t = .comma || t = close
  | [] => false

def startsWith (t : Token) (ts : List Token) : Bool := ts.head? = some t

mutual

/-- Reads a node, and gives the tokens behind it. Blocks are allowed only outside of flow
collections, and items at the column of their key only as the value of that key. -/
def read? (inBlock atKey : Bool) : Nat → List Token → Option (Node × List Token)
  | 0, _ => none
  | fuel + 1, ts =>
      match ts with
      | .scalar isPlain text :: rest => some (.scalar isPlain text, rest)
      | .openBracket :: rest => do
          let (items, rest) ← flowItems? true fuel rest
          pure (.sequence items, rest)
      | .openBrace :: rest => do
          let (pairs, rest) ← flowPairs? true fuel rest
          pure (.mapping pairs, rest)
      | .blockSequence :: rest =>
          if inBlock then do
            let (items, rest) ← blockItems? fuel rest
            pure (.sequence items, rest)
          else none
      | .blockMapping :: rest =>
          if inBlock then do
            let (pairs, rest) ← blockPairs? fuel rest
            pure (.mapping pairs, rest)
          else none
      | .entry :: _ =>
          if atKey then do
            let (items, rest) ← keyItems? fuel ts
            pure (.sequence items, rest)
          else none
      | _ => none

def blockItems? : Nat → List Token → Option (List Node × List Token)
  | 0, _ => none
  | fuel + 1, .entry :: ts => do
      let (item, rest) ← if endsInBlock ts then some (empty, ts) else read? true false fuel ts
      let (items, rest) ← blockItems? fuel rest
      pure (item :: items, rest)
  | _ + 1, .blockEnd :: ts => some ([], ts)
  | _ + 1, _ => none

/-- Items that stand at the column of the key that they are the value of. -/
def keyItems? : Nat → List Token → Option (List Node × List Token)
  | 0, _ => none
  | fuel + 1, .entry :: ts => do
      let (item, rest) ←
        if endsInBlock ts || endsPair ts then some (empty, ts) else read? true false fuel ts
      let (items, rest) ← keyItems? fuel rest
      pure (item :: items, rest)
  | _ + 1, ts => some ([], ts)

def blockPairs? : Nat → List Token → Option (List (Node × Node) × List Token)
  | 0, _ => none
  | _ + 1, .blockEnd :: ts => some ([], ts)
  | fuel + 1, .key :: ts => do
      let (key, rest) ← if endsPair ts then some (empty, ts) else read? true true fuel ts
      let (value, rest) ← pairValue? fuel rest
      let (pairs, rest) ← blockPairs? fuel rest
      pure ((key, value) :: pairs, rest)
  | _ + 1, _ => none

/-- The value of a key in a block; without a colon it is left out. -/
def pairValue? : Nat → List Token → Option (Node × List Token)
  | 0, _ => none
  | fuel + 1, .value :: ts => if endsPair ts then some (empty, ts) else read? true true fuel ts
  | _ + 1, ts => some (empty, ts)

/-- The items of a flow sequence. An item that is a key stands for a mapping with one pair. -/
def flowItems? (first : Bool) : Nat → List Token → Option (List Node × List Token)
  | 0, _ => none
  | _ + 1, .closeBracket :: ts => some ([], ts)
  | fuel + 1, ts => do
      let ts ← if first then some ts else if startsWith .comma ts then some (ts.drop 1) else none
      match ts with
      | .closeBracket :: rest => pure ([], rest)
      | .key :: rest =>
          let (key, rest) ←
            if endsInFlow .closeBracket rest || startsWith .value rest then
              some (empty, rest.drop 1)
            else read? false false fuel rest
          let (value, rest) ← flowValue? .closeBracket fuel rest
          let (items, rest) ← flowItems? false fuel rest
          pure (.mapping [(key, value)] :: items, rest)
      | _ =>
          let (item, rest) ← read? false false fuel ts
          let (items, rest) ← flowItems? false fuel rest
          pure (item :: items, rest)

def flowPairs? (first : Bool) : Nat → List Token → Option (List (Node × Node) × List Token)
  | 0, _ => none
  | _ + 1, .closeBrace :: ts => some ([], ts)
  | fuel + 1, ts => do
      let ts ← if first then some ts else if startsWith .comma ts then some (ts.drop 1) else none
      match ts with
      | .closeBrace :: rest => pure ([], rest)
      | .key :: rest =>
          let (key, rest) ←
            if endsInFlow .closeBrace rest || startsWith .value rest then some (empty, rest)
            else read? false false fuel rest
          let (value, rest) ← flowValue? .closeBrace fuel rest
          let (pairs, rest) ← flowPairs? false fuel rest
          pure ((key, value) :: pairs, rest)
      | _ =>
          let (key, rest) ← read? false false fuel ts
          let (pairs, rest) ← flowPairs? false fuel rest
          pure ((key, empty) :: pairs, rest)

/-- The value of a key in a flow collection; without a colon it is left out. -/
def flowValue? (close : Token) : Nat → List Token → Option (Node × List Token)
  | 0, _ => none
  | fuel + 1, .value :: ts =>
      if endsInFlow close ts then some (empty, ts) else read? false false fuel ts
  | _ + 1, ts => some (empty, ts)

end

/-- Reads the content of a document. -/
def content? (ts : List Token) : Option (Node × List Token) :=
  read? true false (3 * ts.length + 3) ts

/-- The one document of a token list. -/
def document? (ts : List Token) : Option Node := do
  let (node, rest) ←
    match ts with
    | [] => some (empty, [])
    | .documentStart :: rest =>
        match rest with
        | [] | .documentStart :: _ | .documentEnd :: _ => some (empty, rest)
        | _ => content? rest
    | _ => content? ts
  if (rest.dropWhile (· = .documentEnd)).isEmpty then some node else none

/-- The document of a text. -/
def parse? (cs : List Char) : Option Node := do
  document? (← Token.read? cs)

end Node

end TrialView.Yaml
