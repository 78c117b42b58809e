import TrialView.Text.Utf8

/-!
What a path leads to, and a folder of files as a thing that paths are looked up in. A path is a list
of names with slashes between them; empty names and single dots stay where they are, and two dots
go back.
-/

namespace TrialView

/-- What is found at a path. -/
inductive FileContent where
  | missing
  /-- The path goes on behind a file. -/
  | blocked
  | directory
  | bytes (bs : List UInt8)
  | inaccessible (reason : String)
deriving Repr, DecidableEq

namespace FileContent

def missingReason : String := "No such file or directory (os error 2)"

def blockedReason : String := "Not a directory (os error 20)"

def directoryReason : String := "Is a directory (os error 21)"

def encodingReason : String := "stream did not contain valid UTF-8"

def present : FileContent → Bool
  | .missing | .blocked => false
  | _ => true

/-- The bytes of a file, or the reason why there are none. -/
def readBytes : FileContent → Except String (List UInt8)
  | .missing => .error missingReason
  | .blocked => .error blockedReason
  | .directory => .error directoryReason
  | .bytes bs => .ok bs
  | .inaccessible reason => .error reason

/-- The text of a file, or the reason why there is none. -/
def readText (f : FileContent) : Except String (List Char) := do
  match Text.Utf8.decode? (← f.readBytes) with
  | some cs => pure cs
  | none => throw encodingReason

end FileContent

/-- Files by the names on the way to them. -/
structure Folder where
  files : List (List String × List UInt8)
deriving Repr, DecidableEq

namespace Folder

def isDirectory (f : Folder) (place : List String) : Bool :=
  place.isEmpty || f.files.any fun file => List.isPrefixOf place file.1 && place ≠ file.1

/-- Follows names from a place in the folder. What lies outside of the folder is a directory or is
missing. -/
def follow (f : Folder) (place : List String) : List String → FileContent
  | [] =>
      match f.files.lookup place with
      | some bs => .bytes bs
      | none => if f.isDirectory place then .directory else .missing
  | name :: names =>
      if (f.files.lookup place).isSome then .blocked
      else if !f.isDirectory place then .missing
      else if name = "" || name = "." then f.follow place names
      else if name = ".." then
        if place.isEmpty then (if names.isEmpty then .directory else .missing)
        else f.follow place.dropLast names
      else f.follow (place ++ [name]) names

def names (path : String) : List String :=
  (path.toList.splitOn '/').map String.ofList

/-- A folder with files at paths. -/
def ofList (files : List (String × List UInt8)) : Folder :=
  ⟨files.map fun file => ((names file.1).filter fun n => n ≠ "" && n ≠ ".", file.2)⟩

/-- What a path leads to. Only the root is known of what absolute paths lead to. -/
def lookup (f : Folder) (path : String) : FileContent :=
  match path.toList with
  | [] => .missing
  | '/' :: cs => if cs.all (· = '/') then .directory else .missing
  | _ => f.follow [] (names path)

end Folder

end TrialView
