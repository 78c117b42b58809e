/-!
How a command tells that it failed: what it was doing, and the causes from the nearest to the
farthest. A single cause stands by itself and several are numbered; the further lines of a cause are
set in as far as its first one.
-/

namespace TrialView.Command

structure Failure where
  context : String
  causes : List String
deriving Repr, DecidableEq

namespace Failure

/-- A cause with `opening` before its first line and `margin` before each further one. -/
def setIn (opening margin : String) (cause : String) : String :=
  opening ++ String.join (cause.toList.map fun c =>
    if c = '\n' then "\n" ++ margin else c.toString)

/-- Numbers stand in a column of five characters. -/
def numbered (cause : String × Nat) : String :=
  let number := toString cause.2
  setIn (String.ofList (List.replicate (5 - number.length) ' ') ++ number ++ ": ")
    "       " cause.1

def causeLines (causes : List String) : List String :=
  match causes with
  | [] => []
  | [cause] => ["", "Caused by:", setIn "    " "    " cause]
  | _ => "" :: "Caused by:" :: causes.zipIdx.map numbered

/-- The printed form: lines that each end with a line feed. -/
def text (f : Failure) : String :=
  String.join ((s!"Error: {f.context}" :: causeLines f.causes).map (· ++ "\n"))

end Failure

end TrialView.Command
