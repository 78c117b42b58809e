import TrialView.Glob
import TrialView.Schema
import TrialView.Text.Names

/-!
Tests of a name against a list of patterns. An empty list tests nothing; otherwise a name passes if
one of the patterns is equal to it or, in glob mode, matches it. Patterns are kept as a set.
-/

namespace TrialView

inductive MatchMode where
  | exact
  | glob
deriving Repr, DecidableEq

namespace MatchMode

def name : MatchMode → String
  | .exact => "exact"
  | .glob => "glob"

def read {V : Type} [Source V] (v : V) : Except Fault MatchMode := do
  match ← Source.choice ["exact", "glob"] v with
  | "glob" => pure .glob
  | _ => pure .exact

end MatchMode

inductive Matcher where
  | unrestricted
  | exact (names : List String)
  | glob (patterns : List String)
deriving Repr, DecidableEq

namespace Matcher

def ofPatterns (patterns : List String) (mode : MatchMode) : Matcher :=
  if patterns.isEmpty then .unrestricted
  else
    match mode with
    | .exact => .exact (Text.namesOf patterns)
    | .glob => .glob (Text.namesOf patterns)

def isUnrestricted : Matcher → Bool
  | .unrestricted => true
  | _ => false

/-- The distinct patterns in order. -/
def patterns : Matcher → List String
  | .unrestricted => []
  | .exact ps | .glob ps => ps

def accepts : Matcher → String → Bool
  | .unrestricted, _ => true
  | .exact names, candidate => names.contains candidate
  | .glob patterns, candidate => patterns.any (Glob.matchText · candidate)

end Matcher

end TrialView
