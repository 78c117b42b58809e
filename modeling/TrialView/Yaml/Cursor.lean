/-!
A place in a YAML text. Lines and columns matter to the structure of a text, so a cursor counts
them as it moves. Line breaks are carriage return, line feed or both together, next line, and the
two separators of lines and paragraphs.
-/

namespace TrialView.Yaml

structure Cursor where
  rest : List Char
  index : Nat
  line : Nat
  column : Nat
deriving Repr

def isBlank (c : Char) : Bool := c = ' ' || c = '\t'

def isBreak (c : Char) : Bool :=
  c = '\n' || c = '\r' || c = '\u0085' || c = '\u2028' || c = '\u2029'

/-- Whether a text is at its end or goes on with a blank or a line break. -/
def isGap : List Char → Bool
  | [] => true
  | c :: _ => isBlank c || isBreak c

/-- Characters that may occur in a text at all. -/
def isPrintable (c : Char) : Bool :=
  let n := c.toNat
  n = 0x9 || n = 0xA || n = 0xD || (0x20 ≤ n && n ≤ 0x7E) || n = 0x85 || (0xA0 ≤ n && n ≤ 0xFFFD)
    || 0x10000 ≤ n

namespace Cursor

def start (cs : List Char) : Cursor := ⟨cs, 0, 0, 0⟩

/-- Moves over one character within a line. -/
def skip (c : Cursor) : Cursor :=
  ⟨c.rest.drop 1, c.index + 1, c.line, c.column + 1⟩

def skipMany (c : Cursor) (n : Nat) : Cursor :=
  ⟨c.rest.drop n, c.index + n, c.line, c.column + n⟩

/-- Moves over a line break and gives the character that it counts as. -/
def skipBreak (c : Cursor) : Char × Cursor :=
  match c.rest with
  | '\r' :: '\n' :: rest => ('\n', ⟨rest, c.index + 2, c.line + 1, 0⟩)
  | b :: rest =>
      let counted := if b = '\u2028' || b = '\u2029' then b else '\n'
      (counted, ⟨rest, c.index + 1, c.line + 1, 0⟩)
  | [] => ('\n', c)

/-- Whether a line begins here with the mark of a document's start or end. -/
def atDocumentMark (c : Cursor) : Bool :=
  c.column = 0 &&
    match c.rest with
    | '-' :: '-' :: '-' :: rest => isGap rest
    | '.' :: '.' :: '.' :: rest => isGap rest
    | _ => false

end Cursor

/-- The white space between two words of a scalar: blanks within a line, or line breaks. -/
structure Gap where
  /-- Blanks before any line break. -/
  blanks : List Char
  /-- The first line break, unless it was escaped. -/
  firstBreak : Option Char
  moreBreaks : List Char
  hasBreak : Bool
deriving Repr

namespace Gap

/-- What stands before any white space, or right after an escaped line break. -/
def empty (hasBreak : Bool) : Gap := ⟨[], none, [], hasBreak⟩

/-- What a gap counts as: one line break is folded into a space, and more of them into all but the
first. -/
def fold (g : Gap) : List Char :=
  if g.hasBreak then
    match g.firstBreak with
    | some '\n' => if g.moreBreaks.isEmpty then [' '] else g.moreBreaks
    | some b => b :: g.moreBreaks
    | none => g.moreBreaks
  else g.blanks

/-- Reads a gap. In a plain scalar a tab may not stand where lines are indented, which is before
column `tabLimit`. -/
def read? (tabLimit : Nat) : Nat → Cursor → Gap → Option (Cursor × Gap)
  | 0, c, g => some (c, g)
  | fuel + 1, c, g =>
      match c.rest with
      | [] => some (c, g)
      | b :: _ =>
          if isBlank b then
            if g.hasBreak then
              if b = '\t' && c.column < tabLimit then none else read? tabLimit fuel c.skip g
            else read? tabLimit fuel c.skip { g with blanks := g.blanks ++ [b] }
          else if isBreak b then
            let (counted, c) := c.skipBreak
            if g.hasBreak then
              read? tabLimit fuel c { g with moreBreaks := g.moreBreaks ++ [counted] }
            else read? tabLimit fuel c ⟨[], some counted, [], true⟩
          else some (c, g)

end Gap

end TrialView.Yaml
