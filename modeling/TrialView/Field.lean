import TrialView.Schema
import TrialView.Text.Blank

/-!
The seven field categories of a step and the identifiers that name them. An identifier is the name
of a field in letters of any case, with or without the long form's opening, and with blanks around
it.
-/

namespace TrialView

inductive Field where
  | observation
  | action
  | reward
  | receivedRewards
  | sentRewards
  | receivedMessages
  | sentMessages
deriving Repr, DecidableEq

namespace Field

def all : List Field :=
  [.observation, .action, .reward, .receivedRewards, .sentRewards, .receivedMessages, .sentMessages]

def name : Field → String
  | .observation => "observation"
  | .action => "action"
  | .reward => "reward"
  | .receivedRewards => "received_rewards"
  | .sentRewards => "sent_rewards"
  | .receivedMessages => "received_messages"
  | .sentMessages => "sent_messages"

def names : List String := all.map name

/-- What a long identifier begins with. -/
def identifierStart : String := "TRIAL_SAMPLE_FIELD_"

/-- The long identifier of a field. -/
def identifier (f : Field) : String :=
  identifierStart ++ String.ofList (f.name.toList.map Char.toUpper)

/-- The field with exactly this name. -/
def ofName? (name : List Char) : Option Field :=
  all.find? fun f => f.name.toList == name

/-- The field that an identifier denotes. The opening is told by its case and taken off once; the
rest is read without regard to the case of ASCII letters. -/
def parse? (text : String) : Option Field :=
  let trimmed := Text.trim text.toList
  let bare := (identifierStart.toList.isPrefixOf? trimmed).getD trimmed
  ofName? (Text.asciiLower bare)

def unknownMessage (text : String) : String := s!"unknown sample field: {text}"

def read {V : Type} [Source V] (v : V) : Except Fault Field := do
  let name ← Source.choice names v
  match ofName? name.toList with
  | some f => pure f
  | none => throw .form

end Field

end TrialView
