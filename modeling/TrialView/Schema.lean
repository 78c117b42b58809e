import TrialView.Number.Single

/-!
Reading records out of documents. A `Source` is a kind of document tree: it says how its values are
taken for text, numbers, lists and so on, and why they sometimes cannot be. A record is described by
its slots in the order of declaration. In a document it is keyed, with each slot at most once and in
any order, or listed, with the slots in order and the optional ones at the end left off if wanted.
Documents are read from front to back, so of several faults the first one is reported.
-/

namespace TrialView

open Number

/-- Why a document does not stand for a value: what it says is of the wrong kind, or it has not got
the form of a document. -/
inductive Fault where
  | data (message : String)
  | form
deriving Repr, DecidableEq

namespace Fault

def message : Fault → String
  | .data message => message
  | .form => "the text is not well formed"

end Fault

/-- How a value holds the parts of a record. The name of a part may be a fault of its own. -/
inductive Shape (V : Type) where
  | keyed (members : List (Except Fault String × V))
  | listed (items : List V)

/-- What a document tree has to offer. The texts passed along name what was expected. -/
class Source (V : Type) where
  text : V → Except Fault String
  bool : V → Except Fault Bool
  /-- A natural number below a limit. -/
  natural : (limit : Nat) → (expected : String) → V → Except Fault Nat
  /-- An integer of sixty-four bits. -/
  integer : V → Except Fault Int
  single : V → Except Fault Single
  items : V → Except Fault (List V)
  shape : (expected : String) → V → Except Fault (Shape V)
  /-- One of the given names. -/
  choice : (names : List String) → V → Except Fault String
  /-- Whether the value stands for the absence of one. -/
  isAbsent : V → Bool
  /-- Passes over a value that nobody asked for. -/
  skip : V → Except Fault Unit

namespace Source

variable {V : Type} [Source V]

def byte (v : V) : Except Fault UInt8 := do
  return UInt8.ofNat (← natural UInt8.size "u8" v)

def word32 (v : V) : Except Fault UInt32 := do
  return UInt32.ofNat (← natural UInt32.size "u32" v)

def word64 (v : V) : Except Fault UInt64 := do
  return UInt64.ofNat (← natural UInt64.size "u64" v)

def list {α : Type} (read : V → Except Fault α) (v : V) : Except Fault (List α) := do
  (← items v).mapM read

def optional {α : Type} (read : V → Except Fault α) (v : V) : Except Fault (Option α) :=
  if isAbsent v then .ok none else some <$> read v

def bytes (v : V) : Except Fault (List UInt8) := list byte v

end Source

/-- A part of a record: its name, whether it may be left out, and how its value is put in place. -/
structure Slot (V α : Type) where
  name : String
  required : Bool
  put : V → α → Except Fault α

namespace Slot

variable {V α β : Type}

def needed (name : String) (read : V → Except Fault β) (set : β → α → α) : Slot V α :=
  ⟨name, true, fun v a => do return set (← read v) a⟩

def defaulted (name : String) (read : V → Except Fault β) (set : β → α → α) : Slot V α :=
  ⟨name, false, fun v a => do return set (← read v) a⟩

end Slot

namespace Record

variable {V α : Type} [Source V]

def duplicate (name : String) : Fault := .data s!"duplicate field `{name}`"

def missing (name : String) : Fault := .data s!"missing field `{name}`"

/-- Puts keyed members in place, and collects the names that were seen. A name that comes again is
refused before its value is looked at, and a name that no slot has is passed over. -/
def readMembers (slots : List (Slot V α)) :
    List (Except Fault String × V) → List String → α → Except Fault (List String × α)
  | [], seen, a => .ok (seen, a)
  | (key, v) :: rest, seen, a => do
      let name ← key
      match slots.find? (·.name == name) with
      | none =>
          Source.skip v
          readMembers slots rest seen a
      | some slot =>
          if name ∈ seen then throw (duplicate name)
          else readMembers slots rest (name :: seen) (← slot.put v a)

/-- Puts listed items in place; `taken` counts those before, and `size` is the number of slots. -/
def readItems (expected : String) (size : Nat) :
    List (Slot V α) → Nat → List V → α → Except Fault α
  | [], _, [], a => .ok a
  | [], _, _ :: _, _ => .error .form
  | slots, taken, [], a =>
      match slots.findIdx? (·.required) with
      | none => .ok a
      | some i => .error (.data
          s!"invalid length {taken + i}, expected {expected} with {size} elements")
  | slot :: slots, taken, v :: vs, a => do
      readItems expected size slots (taken + 1) vs (← slot.put v a)

/-- Reads a record into `blank`, which holds the values of the parts that are left out. -/
def read (expected : String) (slots : List (Slot V α)) (blank : α) (v : V) : Except Fault α := do
  match ← Source.shape expected v with
  | .keyed members =>
      let (seen, a) ← readMembers slots members [] blank
      match slots.find? (fun slot => slot.required && !seen.contains slot.name) with
      | some slot => throw (missing slot.name)
      | none => pure a
  | .listed items => readItems expected slots.length slots 0 items blank

end Record

end TrialView
