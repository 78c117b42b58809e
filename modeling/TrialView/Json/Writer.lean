import TrialView.Json.Value
import TrialView.Number.Single

/-!
JSON trees as text, in one of two styles: compact, without any white space, and indented, with each
item and member on a line of its own, two spaces deeper than what it belongs to. Empty arrays and
objects are closed at once in both.
-/

namespace TrialView.Json

inductive Style where
  | compact
  | indented
deriving Repr, DecidableEq

namespace Style

/-- What separates items at a depth. -/
def lineBreak : Style → Nat → List Char
  | .compact, _ => []
  | .indented, depth => '\n' :: List.replicate (2 * depth) ' '

def colon : Style → List Char
  | .compact => [':']
  | .indented => [':', ' ']

end Style

/-- Four lower-case hexadecimal digits of a control character. -/
def unitDigits (c : Char) : List Char :=
  ['0', '0', Nat.digitChar (c.toNat / 16), Nat.digitChar (c.toNat % 16)]

def escapeChar (c : Char) : List Char :=
  if c = '"' then ['\\', '"']
  else if c = '\\' then ['\\', '\\']
  else if c = '\x08' then ['\\', 'b']
  else if c = '\x0c' then ['\\', 'f']
  else if c = '\n' then ['\\', 'n']
  else if c = '\r' then ['\\', 'r']
  else if c = '\t' then ['\\', 't']
  else if c.toNat < 0x20 then '\\' :: 'u' :: unitDigits c
  else [c]

def writeText (s : String) : List Char :=
  '"' :: (s.toList.flatMap escapeChar ++ ['"'])

mutual

/-- Writes a tree that stands at a depth; nothing is written for the leaves that are not JSON. -/
def write (style : Style) (depth : Nat) : Json → List Char
  | .null => ['n', 'u', 'l', 'l']
  | .bool true => ['t', 'r', 'u', 'e']
  | .bool false => ['f', 'a', 'l', 's', 'e']
  | .number lexeme => lexeme
  | .text s => writeText s
  | .array [] => ['[', ']']
  | .array (v :: vs) =>
      '[' :: (style.lineBreak (depth + 1) ++ v.write style (depth + 1)
        ++ writeItems style (depth + 1) vs ++ style.lineBreak depth ++ [']'])
  | .object [] => ['\x7b', '\x7d']
  | .object ((k, v) :: ms) =>
      '\x7b' :: (style.lineBreak (depth + 1) ++ k.write style (depth + 1) ++ style.colon
        ++ v.write style (depth + 1) ++ writeMembers style (depth + 1) ms ++ style.lineBreak depth
        ++ ['\x7d'])
  | .unpaired | .broken => []

/-- Writes the items after the first. -/
def writeItems (style : Style) (depth : Nat) : List Json → List Char
  | [] => []
  | v :: vs => ',' :: (style.lineBreak depth ++ v.write style depth ++ writeItems style depth vs)

/-- Writes the members after the first. -/
def writeMembers (style : Style) (depth : Nat) : List (Json × Json) → List Char
  | [] => []
  | (k, v) :: ms =>
      ',' :: (style.lineBreak depth ++ k.write style depth ++ style.colon ++ v.write style depth
        ++ writeMembers style depth ms)

end

def render (style : Style) (v : Json) : List Char :=
  v.write style 0

def ofNat (n : Nat) : Json := .number (Number.natText n)

def ofInt (n : Int) : Json := .number (Number.intText n)

/-- A number that is not finite has no JSON form and is written as null. -/
def ofSingle (x : Number.Single) : Json :=
  match x.text? with
  | some cs => .number cs
  | none => .null

def ofBytes (bs : List UInt8) : Json :=
  .array (bs.map fun b => .ofNat b.toNat)

end TrialView.Json
