import TrialView.Yaml.Scalar

/-!
The tokens of a YAML text. Indentation becomes tokens of its own: a deeper line of items or keys
opens a block, and a line further left closes blocks. That something is a key shows only at the
colon behind it, so the places of possible keys are remembered, one for each level of flow
collections, and the token that opens a key is put in afterwards.

The part of YAML that is read has block and flow collections, plain and quoted scalars, comments and
the marks of documents. Anchors, tags, directives and block scalars are refused.
-/

namespace TrialView.Yaml

inductive Token where
  | documentStart
  | documentEnd
  | blockSequence
  | blockMapping
  | blockEnd
  | openBracket
  | closeBracket
  | openBrace
  | closeBrace
  | comma
  | entry
  | key
  | value
  | scalar (isPlain : Bool) (text : String)
deriving Repr, DecidableEq

/-- Where a key may have begun. -/
structure KeyPlace where
  /-- The number of tokens before it. -/
  tokens : Nat
  index : Nat
  line : Nat
  column : Nat
  /-- Whether nothing but a key may stand there. -/
  required : Bool
deriving Repr

/-- A key has to be on one line and no longer than this. -/
def maxKeyLength : Nat := 1024

structure Scanner where
  cursor : Cursor
  tokens : Array Token
  /-- The column of each open block, innermost first. -/
  indents : List Nat
  keyAllowed : Bool
  /-- The possible key of each level, innermost first; the last level is outside of flow
  collections. -/
  keys : List (Option KeyPlace)
deriving Repr

namespace Scanner

def start (cs : List Char) : Scanner := ⟨.start cs, #[], [], true, [none]⟩

def inFlow (s : Scanner) : Bool := 1 < s.keys.length

def emit (s : Scanner) (t : Token) : Scanner := { s with tokens := s.tokens.push t }

/-- Emits a token and moves over the characters that it is written with. -/
def take (s : Scanner) (t : Token) (size : Nat) : Scanner :=
  { s.emit t with cursor := s.cursor.skipMany size }

/-- The column that a line has to reach to belong to the innermost block. -/
def lineIndent (s : Scanner) : Nat :=
  match s.indents with
  | [] => 0
  | i :: _ => i + 1

/-- Closes the blocks that are further right than a column. -/
def unroll (s : Scanner) (closes : Nat → Bool) : Scanner :=
  if s.inFlow then s
  else
    let closed := (s.indents.takeWhile closes).length
    { s with
      tokens := s.tokens ++ Array.replicate closed Token.blockEnd
      indents := s.indents.drop closed }

/-- Opens a block at a column if it is further right than the innermost one. The token is put in
at a place among the tokens. -/
def roll (s : Scanner) (column place : Nat) (t : Token) : Scanner :=
  if s.inFlow || !(s.lineIndent ≤ column) then s
  else { s with tokens := s.tokens.insertIdxIfInBounds place t, indents := column :: s.indents }

/-- Forgets the possible key of this level; nothing if it had to be one. -/
def dropKey? (s : Scanner) : Option Scanner :=
  match s.keys with
  | some k :: rest => if k.required then none else some { s with keys := none :: rest }
  | _ => some s

/-- Remembers that a key may begin here. -/
def saveKey? (s : Scanner) : Option Scanner := do
  if !s.keyAllowed then return s
  let s ← s.dropKey?
  let required := !s.inFlow && s.indents.head? = some s.cursor.column
  let k : KeyPlace :=
    ⟨s.tokens.size, s.cursor.index, s.cursor.line, s.cursor.column, required⟩
  pure { s with keys := some k :: s.keys.drop 1 }

/-- Forgets the possible keys that the cursor has left too far behind. -/
def dropStaleKeys? (s : Scanner) : Option Scanner := do
  let keys ← s.keys.mapM fun k? =>
    match k? with
    | some k =>
        if k.line < s.cursor.line || k.index + maxKeyLength < s.cursor.index then
          if k.required then none else some none
        else some (some k)
    | none => some none
  pure { s with keys := keys }

/-- Passes over blanks, comments and line breaks. A line break outside of flow collections allows a
key, and where one may stand a tab is no blank. -/
def skipSpace : Nat → Scanner → Scanner
  | 0, s => s
  | fuel + 1, s =>
      match s.cursor.rest with
      | [] => s
      | c :: _ =>
          if c = '\ufeff' && s.cursor.index = 0 then
            skipSpace fuel { s with cursor := s.cursor.skip }
          else if c = ' ' || (c = '\t' && (s.inFlow || !s.keyAllowed)) then
            skipSpace fuel { s with cursor := s.cursor.skip }
          else if c = '#' then
            let size := (s.cursor.rest.takeWhile (!isBreak ·)).length
            skipSpace fuel { s with cursor := s.cursor.skipMany size }
          else if isBreak c then
            skipSpace fuel
              { s with cursor := s.cursor.skipBreak.2, keyAllowed := s.keyAllowed || !s.inFlow }
          else s

def documentMark? (s : Scanner) (t : Token) : Option Scanner := do
  let s ← (s.unroll fun _ => true).dropKey?
  pure { s.take t 3 with keyAllowed := false }

def openFlow? (s : Scanner) (t : Token) : Option Scanner := do
  let s ← s.saveKey?
  pure { s.take t 1 with keyAllowed := true, keys := none :: s.keys }

def closeFlow? (s : Scanner) (t : Token) : Option Scanner := do
  let s ← s.dropKey?
  pure { s.take t 1 with keyAllowed := false, keys := if s.inFlow then s.keys.drop 1 else s.keys }

def comma? (s : Scanner) : Option Scanner := do
  let s ← s.dropKey?
  pure { s.take .comma 1 with keyAllowed := true }

def entry? (s : Scanner) : Option Scanner := do
  if !s.inFlow && !s.keyAllowed then failure
  let s := s.roll s.cursor.column s.tokens.size .blockSequence
  let s ← s.dropKey?
  pure { s.take .entry 1 with keyAllowed := true }

def key? (s : Scanner) : Option Scanner := do
  if !s.inFlow && !s.keyAllowed then failure
  let s := s.roll s.cursor.column s.tokens.size .blockMapping
  let s ← s.dropKey?
  pure { s.take .key 1 with keyAllowed := !s.inFlow }

/-- A colon: what stood before it was a key, if one was possible there. -/
def value? (s : Scanner) : Option Scanner :=
  match s.keys with
  | some k :: rest =>
      let s := { s with tokens := s.tokens.insertIdxIfInBounds k.tokens .key }
      let s := s.roll k.column k.tokens .blockMapping
      some { s.take .value 1 with keys := none :: rest, keyAllowed := false }
  | _ =>
      if !s.inFlow && !s.keyAllowed then none
      else
        let s := s.roll s.cursor.column s.tokens.size .blockMapping
        some { s.take .value 1 with keyAllowed := !s.inFlow }

def quoted? (s : Scanner) (quote : Char) : Option Scanner := do
  let s ← s.saveKey?
  let (text, c) ← Yaml.quoted? quote (s.cursor.rest.length + 1) s.cursor.skip []
  pure { s.emit (.scalar false (String.ofList text)) with cursor := c, keyAllowed := false }

def plain? (s : Scanner) : Option Scanner := do
  let s ← s.saveKey?
  let (text, c, hasBreak) ←
    Yaml.plain? s.inFlow s.lineIndent (s.cursor.rest.length + 1) s.cursor [] (.empty false)
  pure { s.emit (.scalar true (String.ofList text)) with cursor := c, keyAllowed := hasBreak }

/-- Marks that a plain scalar does not begin with. -/
def isMark (c : Char) : Bool :=
  isFlowMark c || "-?:#&*!|>'\"%@`".toList.contains c

/-- Reads one token, at a cursor that is not at the end. -/
def token? (s : Scanner) (c : Char) (rest : List Char) : Option Scanner :=
  if s.cursor.atDocumentMark then
    s.documentMark? (if c = '-' then .documentStart else .documentEnd)
  else if c = '[' then s.openFlow? .openBracket
  else if c = '\x7b' then s.openFlow? .openBrace
  else if c = ']' then s.closeFlow? .closeBracket
  else if c = '\x7d' then s.closeFlow? .closeBrace
  else if c = ',' then s.comma?
  else if c = '-' && isGap rest then s.entry?
  else if c = '?' && (s.inFlow || isGap rest) then s.key?
  else if c = ':' && (s.inFlow || isGap rest) then s.value?
  else if c = '\'' || c = '"' then s.quoted? c
  else if !isMark c || c = '-' || (!s.inFlow && (c = '?' || c = ':')) then
    if isBlank c then none else s.plain?
  else none

/-- Reads tokens to the end of the text, each of them at least one character long. -/
def run? : Nat → Scanner → Option (List Token)
  | 0, _ => none
  | fuel + 1, s => do
      let s ← (s.skipSpace (s.cursor.rest.length + 1)).dropStaleKeys?
      match s.cursor.rest with
      | [] =>
          let s ← (s.unroll fun _ => true).dropKey?
          pure s.tokens.toList
      | c :: rest => run? fuel (← (s.unroll (s.cursor.column < ·)).token? c rest)

end Scanner

/-- The tokens of a text, if it has a form at all. -/
def Token.read? (cs : List Char) : Option (List Token) :=
  if cs.all isPrintable then (Scanner.start cs).run? (cs.length + 1) else none

end TrialView.Yaml
