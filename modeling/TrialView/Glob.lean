import TrialView.Text.Utf8

/-!
Glob patterns over the bytes of a text. `*` stands for bytes other than a slash and `**` for any,
`?` for one byte, brackets for one byte of a class, braces for one of several patterns; a backslash
takes the special meaning from the next byte, and each leading `!` turns the answer round.

Matching is a machine with one position in the pattern and one in the subject. It remembers the last
star and the last double star, so that it can let them take one byte more where the match fails,
and an open brace pushes what it remembers, so that the next alternative can be tried from there.
-/

namespace TrialView.Glob

/-- The byte of an ASCII character. -/
def byte (c : Char) : UInt8 := UInt8.ofNat c.toNat

/-- A place to go back to: the next subject position counts from one, and zero means none. -/
structure Mark where
  pattern : Nat
  subject : Nat
deriving Repr, DecidableEq

namespace Mark

def none : Mark := ⟨0, 0⟩

end Mark

structure State where
  pattern : Nat
  subject : Nat
  /-- Where to resume after the last star. -/
  wild : Mark
  /-- Where to resume after the last double star. -/
  star : Mark
deriving Repr, DecidableEq

/-- A state, the states at the braces that are open, innermost first, and the farthest that an
alternative of them has come. -/
structure Machine where
  state : State
  braces : List State
  longest : Nat
deriving Repr, DecidableEq

/-- Braces may be nested no deeper. -/
def maxBraces : Nat := 10

section

variable (glob path : List UInt8)

def globIs (i : Nat) (c : Char) : Bool := glob[i]? = some (byte c)

def pathIs (i : Nat) (c : Char) : Bool := path[i]? = some (byte c)

/-- The position after all the `/**` that follow one another from a position on. -/
def skipDoubleStars : Nat → Nat → Nat
  | 0, i => i
  | fuel + 1, i =>
      if globIs glob i '/' && globIs glob (i + 1) '*' && globIs glob (i + 2) '*' then
        skipDoubleStars fuel (i + 3)
      else i

/-- The position of the last double star of those that follow one another from `i` on. -/
def lastDoubleStar (i : Nat) : Nat :=
  skipDoubleStars glob glob.length (i + 2) - 2

/-- What ends the search for the rest of a brace. -/
inductive Skipped where
  | invalid
  | comma (position : Nat)
  | close (position : Nat)
deriving Repr, DecidableEq

/-- Goes to the end of the innermost open brace, or to its next comma if that is wanted. -/
def skipBraces (stopOnComma : Bool) : Nat → Nat → Nat → Bool → Skipped
  | 0, _, _, _ => .invalid
  | fuel + 1, i, depth, inBrackets =>
      if depth = 0 then .close i
      else
        match glob[i]? with
        | none => .invalid
        | some b =>
            if b = byte '\x7b' && !inBrackets then
              skipBraces stopOnComma fuel (i + 1) (depth + 1) inBrackets
            else if b = byte '\x7d' && !inBrackets then
              skipBraces stopOnComma fuel (i + 1) (depth - 1) inBrackets
            else if b = byte ',' && stopOnComma && depth = 1 && !inBrackets then .comma (i + 1)
            else if b = byte '*' && !inBrackets then
              let j := if globIs glob (i + 1) '*' then lastDoubleStar glob i + 1 else i
              skipBraces stopOnComma fuel (j + 1) depth inBrackets
            else if b = byte '[' && !inBrackets then skipBraces stopOnComma fuel (i + 1) depth true
            else if b = byte ']' then skipBraces stopOnComma fuel (i + 1) depth false
            else if b = byte '\\' then skipBraces stopOnComma fuel (i + 2) depth inBrackets
            else skipBraces stopOnComma fuel (i + 1) depth inBrackets

/-- Each step moves on in the pattern, so two more steps than it has bytes are enough. -/
def skipRest (stopOnComma : Bool) (i : Nat) : Skipped :=
  skipBraces glob stopOnComma (glob.length + 2) i 1 false

/-- The byte that a backslash and a letter stand for. -/
def escaped (b : UInt8) : UInt8 :=
  if b = byte 'a' then 0x61
  else if b = byte 'b' then 0x08
  else if b = byte 'n' then 0x0A
  else if b = byte 'r' then 0x0D
  else if b = byte 't' then 0x09
  else b

/-- The byte meant at a position and where it was found; nothing if a backslash ends the pattern. -/
def unescape? (i : Nat) (b : UInt8) : Option (UInt8 × Nat) :=
  if b = byte '\\' then (glob[i + 1]?).map fun e => (escaped e, i + 1) else some (b, i)

/-- Reads the ranges of a class up to its bracket: whether `c` is in one of them, and the position
behind the bracket. -/
def readClass (c : UInt8) : Nat → Nat → Bool → Bool → Option (Bool × Nat)
  | 0, _, _, _ => none
  | fuel + 1, i, first, hit =>
      match glob[i]? with
      | none => none
      | some b =>
          if !first && b = byte ']' then some (hit, i + 1)
          else do
            let (low, i) ← unescape? glob i b
            let i := i + 1
            let isRange := globIs glob i '-' && i + 1 < glob.length && !globIs glob (i + 1) ']'
            if isRange then
              let (high, j) ← unescape? glob (i + 1) (glob[i + 1]?.getD 0)
              readClass c fuel (j + 1) false (hit || (low ≤ c && c ≤ high))
            else readClass c fuel i false (hit || low = c)

namespace Machine

/-- Leaves the innermost brace with its longest alternative. -/
def pop (m : Machine) : Machine :=
  match m.braces with
  | [] => m
  | top :: rest =>
      { state := ⟨m.state.pattern, m.longest, top.wild, top.star⟩
        braces := rest
        longest := if rest.isEmpty then 0 else m.longest }

end Machine

/-- What a machine does next: it goes on, or the search is over. -/
inductive Next where
  | continue (m : Machine)
  | matched
  | failed
  | refused
deriving Repr, DecidableEq

/-- Goes back to the last star, so that it takes one more byte. -/
def resume? (s : State) : Option State :=
  if 0 < s.wild.subject && s.wild.subject ≤ path.length then
    some { s with pattern := s.wild.pattern, subject := s.wild.subject }
  else none

/-- What to do where the pattern and the subject do not agree. -/
def backtrack (m : Machine) : Next :=
  match resume? path m.state with
  | some s => .continue { m with state := s }
  | none =>
      match m.braces with
      | [] => .failed
      | top :: rest =>
          match skipRest glob true m.state.pattern with
          | .invalid => .refused
          | .comma i =>
              .continue { m with state := { m.state with pattern := i, subject := top.subject } }
          | .close i =>
              if 0 < m.longest then .continue { m with state := { m.state with pattern := i } }.pop
              else
                match resume? path top with
                | some s => .continue { m with state := s, braces := rest }
                | none => .failed

/-- The state after a star at the position of the state. -/
def passStar (s : State) : State :=
  let isDouble := globIs glob (s.pattern + 1) '*'
  let i := if isDouble then lastDoubleStar glob s.pattern else s.pattern
  let wild : Mark := ⟨i, s.subject + 1⟩
  let s : State :=
    if isDouble then
      let j := i + 2
      if j = glob.length then { s with pattern := j, wild := wild, star := wild }
      else if (j < 3 || globIs glob (j - 3) '/') && globIs glob j '/' then
        let atStart :=
          s.subject = 0 || (s.subject < path.length && pathIs path (s.subject - 1) '/')
        { s with pattern := if atStart then j + 1 else j, wild := wild, star := wild }
      else { s with pattern := j, wild := wild }
    else { s with pattern := i + 1, wild := wild }
  if s.star.subject ≠ s.wild.subject && pathIs path s.subject '/' then
    if 0 < s.star.subject && s.subject + 1 < path.length then
      { s with pattern := s.star.pattern, wild := { s.wild with pattern := s.star.pattern } }
    else { s with wild := { s.wild with subject := 0 } }
  else s

/-- A star. Within a brace the rest of the brace is passed over when an alternative ends here. -/
def stepStar (m : Machine) : Next :=
  let s := passStar glob path m.state
  let ends := globIs glob s.pattern ',' || globIs glob s.pattern '\x7d'
  if !m.braces.isEmpty && ends then
    match skipRest glob false s.pattern with
    | .invalid => .refused
    | .comma i | .close i => .continue { m with state := { s with pattern := i } }
  else .continue { m with state := s }

/-- A class of bytes, at its opening bracket. -/
def stepClass (m : Machine) (c : UInt8) : Next :=
  let i := m.state.pattern + 1
  let isNegated := globIs glob i '^' || globIs glob i '!'
  match readClass glob c (glob.length + 1) (if isNegated then i + 1 else i) true false with
  | none => .refused
  | some (hit, i) =>
      let s := { m.state with pattern := i }
      if hit != isNegated then .continue { m with state := { s with subject := s.subject + 1 } }
      else backtrack glob path { m with state := s }

/-- A byte that stands for itself. -/
def stepLiteral (m : Machine) (b c : UInt8) : Next :=
  match unescape? glob m.state.pattern b with
  | none => .refused
  | some (b, i) =>
      let m := { m with state := { m.state with pattern := i } }
      if b = c then
        let closes := !m.braces.isEmpty && 0 < i && globIs glob (i - 1) '\x7d'
        let m := if closes then { m with longest := m.state.subject }.pop else m
        let star := if b = byte '/' then m.state.star else { m.state.star with subject := 0 }
        .continue { m with state :=
          ⟨m.state.pattern + 1, m.state.subject + 1, m.state.wild, star⟩ }
      else backtrack glob path m

/-- The end of an alternative: its comma leads back to where the brace began. -/
def stepComma (m : Machine) (top : State) : Machine :=
  { m with
    state := ⟨m.state.pattern + 1, top.subject, .none, .none⟩
    longest := max m.longest m.state.subject }

def stepClose (m : Machine) : Machine :=
  { m with
    state := { m.state with pattern := m.state.pattern + 1 }
    longest := max m.longest m.state.subject }.pop

def stepOpen (m : Machine) : Next :=
  if maxBraces ≤ m.braces.length then .refused
  else .continue { m with
    state := ⟨m.state.pattern + 1, m.state.subject, .none, .none⟩
    braces := m.state :: m.braces }

def step (m : Machine) : Next :=
  match glob[m.state.pattern]?, path[m.state.subject]?, m.braces with
  | none, none, _ => .matched
  | none, some _, _ => backtrack glob path m
  | some b, c?, braces =>
      if b = byte '*' then stepStar glob path m
      else if b = byte '\x7d' && !braces.isEmpty then .continue (stepClose m)
      else
        match c?, braces with
        | none, top :: _ =>
            if b = byte ',' then .continue (stepComma m top) else backtrack glob path m
        | none, [] => backtrack glob path m
        | some c, braces =>
            if b = byte '?' then
              if c = byte '/' then backtrack glob path m
              else .continue { m with state :=
                { m.state with pattern := m.state.pattern + 1, subject := m.state.subject + 1 } }
            else if b = byte '[' then stepClass glob path m c
            else if b = byte '\x7b' then stepOpen m
            else
              match braces with
              | top :: _ =>
                  if b = byte ',' then .continue (stepComma m top)
                  else stepLiteral glob path m b c
              | [] => stepLiteral glob path m b c

/-- How the search ended: with a match, without one, or at a pattern that is not well formed. -/
inductive Verdict where
  | matched
  | failed
  | refused
deriving Repr, DecidableEq

def run : Nat → Machine → Verdict
  | 0, _ => .refused
  | fuel + 1, m =>
      match step glob path m with
      | .continue m => run fuel m
      | .matched => .matched
      | .failed => .failed
      | .refused => .refused

/-- More steps than a machine has states: three pairs of positions for the state and for each open
brace, the number of these, and the longest alternative. A search that took more steps would come
to a state twice and never end. -/
def stepBound : Nat :=
  Nat.pow ((glob.length + 3) * (path.length + 2)) (3 * (maxBraces + 1) + 2)

end

/-- The marks of negation that a pattern begins with. -/
def negations (glob : List UInt8) : Nat :=
  (glob.takeWhile (· == byte '!')).length

/-- Whether the bytes of a subject match the bytes of a pattern. -/
def matchBytes (glob path : List UInt8) : Bool :=
  let n := negations glob
  let isNegated := n % 2 = 1
  match run glob path (stepBound glob path) ⟨⟨n, 0, .none, .none⟩, [], 0⟩ with
  | .matched => !isNegated
  | .failed => isNegated
  | .refused => false

def matchText (pattern candidate : String) : Bool :=
  matchBytes (Text.Utf8.encode pattern.toList) (Text.Utf8.encode candidate.toList)

end TrialView.Glob
