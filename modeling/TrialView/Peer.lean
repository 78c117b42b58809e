import TrialView.Schema

/-!
The counterpart of a reward or a message: the environment, or an actor by its place in the roster.
In a document a peer is an integer, and the environment is minus one.
-/

namespace TrialView

inductive Peer where
  | environment
  | actor (index : UInt32)
deriving Repr, DecidableEq

namespace Peer

def isEnvironment : Peer → Bool
  | .environment => true
  | .actor _ => false

def toInt : Peer → Int
  | .environment => -1
  | .actor index => index.toNat

def ofInt? (n : Int) : Option Peer :=
  if n = -1 then some .environment
  else if 0 ≤ n ∧ n < UInt32.size then some (.actor (UInt32.ofNat n.toNat))
  else none

def text : Peer → String
  | .environment => "environment"
  | .actor index => s!"actor#{index.toNat}"

def invalidMessage (n : Int) : String := s!"invalid actor peer {n}"

def read {V : Type} [Source V] (v : V) : Except Fault Peer := do
  let n ← Source.integer v
  match ofInt? n with
  | some p => pure p
  | none => throw (.data (invalidMessage n))

theorem ofInt?_toInt (p : Peer) : ofInt? p.toInt = some p := by
  cases p with
  | environment => rfl
  | actor index =>
      have h : index.toNat < 2 ^ 32 := index.toNat_lt
      simp [ofInt?, toInt]
      omega

end Peer

end TrialView
