import TrialView.FieldFilter
import TrialView.Projection
import TrialView.Store

/-!
All the ways in which work on trials can fail, and how they are told.
-/

namespace TrialView

namespace UnknownField

def message (e : UnknownField) : String := s!"Unknown sample field: {e.identifier}"

end UnknownField

/-- Why a configuration cannot be had: its file cannot be read, or does not hold one. -/
inductive ConfigError where
  | unreadable (reason : String)
  | malformed (reason : String)
deriving Repr, DecidableEq

namespace ConfigError

def message : ConfigError → String
  | .unreadable reason => s!"Failed to read config file: {reason}"
  | .malformed reason => s!"Failed to parse YAML: {reason}"

/-- The message and what lies behind it. -/
def causes (e : ConfigError) : List String :=
  match e with
  | .unreadable reason | .malformed reason => [e.message, reason]

end ConfigError

inductive Error where
  | projection (e : ProjectionError)
  | filter (e : UnknownField)
  | store (e : StoreError)
  | config (e : ConfigError)
deriving Repr, DecidableEq

namespace Error

/-- The message of the failure itself, without saying which part of the work it belongs to. -/
def detail : Error → String
  | .projection e => e.message
  | .filter e => e.message
  | .store e => e.message
  | .config e => e.message

def message (e : Error) : String :=
  match e with
  | .projection _ => s!"Projection error: {e.detail}"
  | .filter _ => s!"Filter error: {e.detail}"
  | .store _ => s!"Store error: {e.detail}"
  | .config _ => s!"Configuration error: {e.detail}"

/-- The message and what lies behind it. -/
def causes (e : Error) : List String := [e.message, e.detail]

end Error

end TrialView
