import TrialView.Yaml.Cursor

/-!
The scalars of a YAML text: plain words, and text in single or double quotes. Each may go on over
several lines, which are folded.
-/

namespace TrialView.Yaml

def isFlowMark (c : Char) : Bool :=
  c = ',' || c = '[' || c = ']' || c = '\x7b' || c = '\x7d'

/-- The characters of a plain scalar up to a gap or a mark that ends it. In a flow collection a
colon may not stand right before another mark. -/
def plainWord? (inFlow : Bool) : List Char → Option (List Char × List Char)
  | [] => some ([], [])
  | c :: rest =>
      let beforeMark :=
        match rest with
        | d :: _ => isFlowMark d || d = '?'
        | [] => false
      if isBlank c || isBreak c then some ([], c :: rest)
      else if inFlow && c = ':' && beforeMark then none
      else if (c = ':' && isGap rest) || (inFlow && isFlowMark c) then some ([], c :: rest)
      else (plainWord? inFlow rest).map fun (w, tail) => (c :: w, tail)

/-- Reads a plain scalar: its text, where it ends, and whether a line break came last. `indent` is
the least column at which it may go on outside of a flow collection. -/
def plain? (inFlow : Bool) (indent : Nat) :
    Nat → Cursor → List Char → Gap → Option (List Char × Cursor × Bool)
  | 0, _, _, _ => none
  | fuel + 1, c, text, gap =>
      if c.atDocumentMark || c.rest.head? = some '#' then some (text, c, gap.hasBreak)
      else
        match plainWord? inFlow c.rest with
        | none => none
        | some (word, rest) =>
            let text := if word.isEmpty then text else text ++ gap.fold ++ word
            let gap := if word.isEmpty then gap else .empty false
            let c := c.skipMany word.length
            if rest.isEmpty || !isGap rest then some (text, c, gap.hasBreak)
            else
              match gap.read? indent rest.length c with
              | none => none
              | some (c, gap) =>
                  if !inFlow && c.column < indent then some (text, c, gap.hasBreak)
                  else plain? inFlow indent fuel c text gap

def hexValue? (c : Char) : Option Nat :=
  if '0' ≤ c ∧ c ≤ '9' then some (c.toNat - '0'.toNat)
  else if 'a' ≤ c ∧ c ≤ 'f' then some (c.toNat - 'a'.toNat + 10)
  else if 'A' ≤ c ∧ c ≤ 'F' then some (c.toNat - 'A'.toNat + 10)
  else none

/-- The character with a number of so many hexadecimal digits. -/
def numbered? (digits : Nat) (cs : List Char) : Option Char :=
  let ds := (cs.take digits).filterMap hexValue?
  let n := ds.foldl (fun n d => n * 16 + d) 0
  if ds.length = digits && n.isValidChar then some (Char.ofNat n) else none

/-- What an escape stands for: the character, and how long the escape is behind the backslash. -/
def escape? : List Char → Option (Char × Nat)
  | '0' :: _ => some ('\x00', 1)
  | 'a' :: _ => some ('\x07', 1)
  | 'b' :: _ => some ('\x08', 1)
  | 't' :: _ | '\t' :: _ => some ('\t', 1)
  | 'n' :: _ => some ('\n', 1)
  | 'v' :: _ => some ('\x0b', 1)
  | 'f' :: _ => some ('\x0c', 1)
  | 'r' :: _ => some ('\r', 1)
  | 'e' :: _ => some ('\x1b', 1)
  | ' ' :: _ => some (' ', 1)
  | '"' :: _ => some ('"', 1)
  | '/' :: _ => some ('/', 1)
  | '\\' :: _ => some ('\\', 1)
  | 'N' :: _ => some ('\u0085', 1)
  | '_' :: _ => some ('\u00a0', 1)
  | 'L' :: _ => some ('\u2028', 1)
  | 'P' :: _ => some ('\u2029', 1)
  | 'x' :: cs => (numbered? 2 cs).map (·, 3)
  | 'u' :: cs => (numbered? 4 cs).map (·, 5)
  | 'U' :: cs => (numbered? 8 cs).map (·, 9)
  | _ => none

/-- The characters of a quoted scalar up to a gap or the closing quote, and whether an escaped line
break came last. -/
def quotedWord? (quote : Char) : Nat → Cursor → List Char → Option (List Char × Cursor × Bool)
  | 0, _, _ => none
  | fuel + 1, c, text =>
      match c.rest with
      | [] => some (text, c, false)
      | d :: rest =>
          if isBlank d || isBreak d then some (text, c, false)
          else if d = quote then
            if quote = '\'' && rest.head? = some '\'' then
              quotedWord? quote fuel (c.skipMany 2) (text ++ ['\''])
            else some (text, c, false)
          else if quote = '"' && d = '\\' then
            if (rest.head?.map isBreak).getD false then some (text, c.skip.skipBreak.2, true)
            else
              match escape? rest with
              | none => none
              | some (e, size) => quotedWord? quote fuel (c.skipMany (1 + size)) (text ++ [e])
          else quotedWord? quote fuel c.skip (text ++ [d])

/-- Reads a quoted scalar behind its opening quote. -/
def quoted? (quote : Char) : Nat → Cursor → List Char → Option (List Char × Cursor)
  | 0, _, _ => none
  | fuel + 1, c, text =>
      if c.atDocumentMark || c.rest.isEmpty then none
      else
        match quotedWord? quote (c.rest.length + 1) c text with
        | none => none
        | some (text, c, escapedBreak) =>
            if c.rest.head? = some quote then some (text, c.skip)
            else
              match (Gap.empty escapedBreak).read? 0 c.rest.length c with
              | none => none
              | some (c, gap) => quoted? quote fuel c (text ++ gap.fold)

end TrialView.Yaml
