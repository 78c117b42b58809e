import TrialView.Field

/-!
Which field categories may be seen. A filter made from no field at all restricts nothing.
-/

namespace TrialView

/-- A set of fields, with one flag for each of them. -/
structure FieldSet where
  observation : Bool
  action : Bool
  reward : Bool
  receivedRewards : Bool
  sentRewards : Bool
  receivedMessages : Bool
  sentMessages : Bool
deriving Repr, DecidableEq

namespace FieldSet

/-- The fields with a property. -/
def filter (p : Field → Bool) : FieldSet :=
  { observation := p .observation
    action := p .action
    reward := p .reward
    receivedRewards := p .receivedRewards
    sentRewards := p .sentRewards
    receivedMessages := p .receivedMessages
    sentMessages := p .sentMessages }

def contains (s : FieldSet) : Field → Bool
  | .observation => s.observation
  | .action => s.action
  | .reward => s.reward
  | .receivedRewards => s.receivedRewards
  | .sentRewards => s.sentRewards
  | .receivedMessages => s.receivedMessages
  | .sentMessages => s.sentMessages

def ofList (fields : List Field) : FieldSet := filter fields.contains

/-- The fields of the set in the order of declaration. -/
def toList (s : FieldSet) : List Field := Field.all.filter s.contains

@[simp] theorem contains_filter (p : Field → Bool) (f : Field) : (filter p).contains f = p f := by
  cases f <;> rfl

theorem ext_contains {s t : FieldSet} (h : ∀ f, s.contains f = t.contains f) : s = t := by
  cases s
  cases t
  simp only [FieldSet.mk.injEq]
  exact ⟨h .observation, h .action, h .reward, h .receivedRewards, h .sentRewards,
    h .receivedMessages, h .sentMessages⟩

end FieldSet

/-- An identifier that names no field. -/
structure UnknownField where
  identifier : String
deriving Repr, DecidableEq

inductive FieldFilter where
  | unrestricted
  | restricted (fields : FieldSet)
deriving Repr, DecidableEq

namespace FieldFilter

def ofFields (fields : List Field) : FieldFilter :=
  if fields.isEmpty then .unrestricted else .restricted (.ofList fields)

/-- The fields that identifiers name, or the first identifier that names none, as it was given. -/
def parseFields : List String → Except UnknownField (List Field)
  | [] => .ok []
  | id :: ids =>
      match Field.parse? id with
      | none => .error ⟨id⟩
      | some f => (f :: ·) <$> parseFields ids

def parse (identifiers : List String) : Except UnknownField FieldFilter :=
  ofFields <$> parseFields identifiers

def isUnrestricted : FieldFilter → Bool
  | .unrestricted => true
  | .restricted _ => false

def includes : FieldFilter → Field → Bool
  | .unrestricted, _ => true
  | .restricted s, f => s.contains f

end FieldFilter

end TrialView
