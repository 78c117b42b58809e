/-!
JSON texts as trees. A number is kept as it is written, and an object keeps its members in order,
repeated names included. Two more leaves make room for texts that are not JSON: `unpaired` stands
for a string with half of a surrogate pair, which has the form of a string but no characters, and
`broken` for the place where a text stops being JSON. What stands before that place is in the tree,
so a reader that goes through the tree in order meets the problems of a text in their order.
-/

namespace TrialView

inductive Json where
  | null
  | bool (value : Bool)
  | number (lexeme : List Char)
  | text (value : String)
  | unpaired
  | array (items : List Json)
  | object (members : List (Json × Json))
  | broken
deriving Repr

namespace Json

/-- An object from names and values. -/
def record (members : List (String × Json)) : Json :=
  .object (members.map fun m => (.text m.1, m.2))

/-- Whether something may stand for the name of a member. -/
def isName : Json → Bool
  | .text _ | .unpaired => true
  | _ => false

mutual

/-- Whether a text is JSON throughout. What the strings and numbers in it stand for is not asked,
so a surrogate without its pair and a number out of range are allowed. -/
def isWhole : Json → Bool
  | .broken => false
  | .array items => areWhole items
  | .object members => areWholeMembers members
  | _ => true

def areWhole : List Json → Bool
  | [] => true
  | v :: vs => v.isWhole && areWhole vs

def areWholeMembers : List (Json × Json) → Bool
  | [] => true
  | (k, v) :: ms => k.isName && v.isWhole && areWholeMembers ms

end

end Json

end TrialView
