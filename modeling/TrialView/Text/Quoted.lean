import TrialView.Text.Hidden

/-!
Text quoted for a message: between double quotes, with a backslash before what would end the
quotation and an escape for each character that would not show.
-/

namespace TrialView.Text

/-- A character by its number in hexadecimal, as `u` and the digits in braces. -/
def numberEscape (c : Char) : List Char :=
  '\\' :: 'u' :: '{' :: (Nat.toDigits 16 c.toNat ++ ['}'])

def quoteChar (c : Char) : List Char :=
  if c = '"' then ['\\', '"']
  else if c = '\\' then ['\\', '\\']
  else if c = '\n' then ['\\', 'n']
  else if c = '\r' then ['\\', 'r']
  else if c = '\t' then ['\\', 't']
  else if c.toNat = 0 then ['\\', '0']
  else if isHidden c then numberEscape c
  else [c]

def quote (cs : List Char) : List Char :=
  '"' :: (cs.flatMap quoteChar ++ ['"'])

end TrialView.Text
