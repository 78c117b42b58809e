/-!
The tokens of a JSON text. White space is space, tab, line feed and carriage return. The tokens end
with the text, or with `broken` at the first place where no token can be read.
-/

namespace TrialView.Json

inductive Token where
  | openBracket
  | closeBracket
  | openBrace
  | closeBrace
  | comma
  | colon
  | null
  | bool (value : Bool)
  | number (lexeme : List Char)
  | text (value : String)
  | unpaired
  | broken
deriving Repr, DecidableEq

def isSpace (c : Char) : Bool :=
  c = ' ' || c = '\t' || c = '\n' || c = '\r'

/-- A part of a string: a character that stands for itself or is escaped by a letter, or a
sixteen-bit unit that is escaped by its number. -/
inductive Piece where
  | char (c : Char)
  | unit (n : Nat)
deriving Repr, DecidableEq

namespace Piece

def isHigh (n : Nat) : Bool := 0xD800 ≤ n && n < 0xDC00

def isLow (n : Nat) : Bool := 0xDC00 ≤ n && n < 0xE000

/-- The characters of a string, if every high surrogate is followed by a low one and the other way
round. -/
def assemble : List Piece → Option (List Char)
  | [] => some []
  | .char c :: rest => (assemble rest).map (c :: ·)
  | .unit h :: .unit l :: rest =>
      if isHigh h then
        if isLow l then
          (assemble rest).map (Char.ofNat (0x10000 + (h - 0xD800) * 0x400 + (l - 0xDC00)) :: ·)
        else none
      else if isLow h then none
      else (assemble (.unit l :: rest)).map (Char.ofNat h :: ·)
  | .unit n :: rest =>
      if isHigh n || isLow n then none else (assemble rest).map (Char.ofNat n :: ·)

end Piece

/-- The characters that a backslash and a letter stand for. -/
def letterEscape? (c : Char) : Option Char :=
  match c with
  | '"' => some '"'
  | '\\' => some '\\'
  | '/' => some '/'
  | 'b' => some '\x08'
  | 'f' => some '\x0c'
  | 'n' => some '\n'
  | 'r' => some '\r'
  | 't' => some '\t'
  | _ => none

def hexDigit? (c : Char) : Option Nat :=
  if '0' ≤ c ∧ c ≤ '9' then some (c.toNat - '0'.toNat)
  else if 'a' ≤ c ∧ c ≤ 'f' then some (c.toNat - 'a'.toNat + 10)
  else if 'A' ≤ c ∧ c ≤ 'F' then some (c.toNat - 'A'.toNat + 10)
  else none

def unitEscape? (a b c d : Char) : Option Nat := do
  pure (((((← hexDigit? a) * 16) + (← hexDigit? b)) * 16 + (← hexDigit? c)) * 16 + (← hexDigit? d))

/-- The pieces of a string up to its closing quote, and what follows it. Control characters have
to be escaped. -/
def pieces? : List Char → Option (List Piece × List Char)
  | [] => none
  | '"' :: rest => some ([], rest)
  | '\\' :: 'u' :: a :: b :: c :: d :: rest =>
      match unitEscape? a b c d with
      | none => none
      | some n => (pieces? rest).map fun (ps, tail) => (.unit n :: ps, tail)
  | '\\' :: c :: rest =>
      match letterEscape? c with
      | none => none
      | some e => (pieces? rest).map fun (ps, tail) => (.char e :: ps, tail)
  | c :: rest =>
      if c.toNat < 0x20 || c = '\\' then none
      else (pieces? rest).map fun (ps, tail) => (.char c :: ps, tail)

/-- One or more digits, and what follows them. -/
def digits? (cs : List Char) : Option (List Char × List Char) :=
  let (ds, rest) := cs.span Char.isDigit
  if ds.isEmpty then none else some (ds, rest)

/-- The point and the digits of a fraction; a text without a point has the empty one. -/
def fraction? : List Char → Option (List Char × List Char)
  | '.' :: cs => (digits? cs).map fun (ds, rest) => ('.' :: ds, rest)
  | cs => some ([], cs)

/-- The mark, sign and digits of an exponent; a text without a mark has the empty one. -/
def exponent? : List Char → Option (List Char × List Char)
  | c :: cs =>
      if c = 'e' || c = 'E' then
        match cs with
        | '+' :: rest => (digits? rest).map fun (ds, tail) => (c :: '+' :: ds, tail)
        | '-' :: rest => (digits? rest).map fun (ds, tail) => (c :: '-' :: ds, tail)
        | _ => (digits? cs).map fun (ds, tail) => (c :: ds, tail)
      else some ([], c :: cs)
  | [] => some ([], [])

/-- The digits before the point: a zero stands alone. -/
def whole? (cs : List Char) : Option (List Char × List Char) := do
  let (ds, rest) ← digits? cs
  match ds with
  | '0' :: _ :: _ => none
  | _ => some (ds, rest)

def unsigned? (cs : List Char) : Option (List Char × List Char) := do
  let (ds, cs) ← whole? cs
  let (fs, cs) ← fraction? cs
  let (es, cs) ← exponent? cs
  pure (ds ++ fs ++ es, cs)

def lexeme? : List Char → Option (List Char × List Char)
  | '-' :: cs => (unsigned? cs).map fun (l, rest) => ('-' :: l, rest)
  | cs => unsigned? cs

namespace Token

/-- The token that a string stands for. -/
def ofPieces (ps : List Piece) : Token :=
  match Piece.assemble ps with
  | some cs => .text (String.ofList cs)
  | none => .unpaired

/-- The first token of a text that does not begin with white space, and what follows it. -/
def next? : List Char → Option (Token × List Char)
  | '[' :: cs => some (.openBracket, cs)
  | ']' :: cs => some (.closeBracket, cs)
  | '\x7b' :: cs => some (.openBrace, cs)
  | '\x7d' :: cs => some (.closeBrace, cs)
  | ',' :: cs => some (.comma, cs)
  | ':' :: cs => some (.colon, cs)
  | '"' :: cs => (pieces? cs).map fun (ps, rest) => (ofPieces ps, rest)
  | 'n' :: 'u' :: 'l' :: 'l' :: cs => some (.null, cs)
  | 't' :: 'r' :: 'u' :: 'e' :: cs => some (.bool true, cs)
  | 'f' :: 'a' :: 'l' :: 's' :: 'e' :: cs => some (.bool false, cs)
  | cs => (lexeme? cs).map fun (l, rest) => (.number l, rest)

/-- Reads at most `fuel` characters and tokens. -/
def readWithin : Nat → List Char → List Token
  | _, [] => []
  | 0, _ :: _ => [.broken]
  | fuel + 1, c :: cs =>
      if isSpace c then readWithin fuel cs
      else
        match next? (c :: cs) with
        | some (t, rest) => t :: readWithin fuel rest
        | none => [.broken]

def read (cs : List Char) : List Token :=
  readWithin cs.length cs

end Token

end TrialView.Json
