import TrialView.Json.Writer
import TrialView.Text.Utf8
import Mathlib.Algebra.Ring.Nat

/-!
How many bytes written JSON takes. An array takes its brackets, a line break before the closing one,
and for each of its items the bracket or comma before it, a line break and the item itself. So the
place of an item among the others does not matter, and the size of an array depends on its items
through one sum. The same holds for the members of an object. Only an array or object without
anything in it is closed at once.
-/

namespace TrialView

namespace Text.Utf8

/-- How many bytes a text takes. -/
def size (cs : List Char) : Nat := (encode cs).length

@[simp] theorem size_nil : size [] = 0 := rfl

@[simp] theorem size_cons (c : Char) (cs : List Char) : size (c :: cs) = c.utf8Size + size cs := by
  simp [size, encode]

@[simp] theorem size_append (first second : List Char) :
    size (first ++ second) = size first + size second := by
  simp [size, encode]

theorem size_pos {cs : List Char} (h : cs ≠ []) : 0 < size cs := by
  obtain ⟨c, cs, rfl⟩ := List.exists_cons_of_ne_nil h
  rw [size_cons]
  exact Nat.add_pos_left c.utf8Size_pos _

end Text.Utf8

namespace Json

open Text

/-- How many bytes a tree takes at a depth. -/
def size (style : Style) (depth : Nat) (v : Json) : Nat := Utf8.size (v.write style depth)

/-- An item with what stands before it. -/
def itemSize (style : Style) (depth : Nat) (v : Json) : Nat :=
  1 + Utf8.size (style.lineBreak depth) + v.size style depth

/-- A member with what stands before it. -/
def memberSize (style : Style) (depth : Nat) (m : Json × Json) : Nat :=
  1 + Utf8.size (style.lineBreak depth) + m.1.size style depth + Utf8.size style.colon
    + m.2.size style depth

/-- Brackets around something that takes a number of bytes with its opening bracket. -/
def closedSize (style : Style) (depth inner : Nat) : Nat :=
  if inner = 0 then 2 else inner + Utf8.size (style.lineBreak depth) + 1

section

variable {style : Style} {depth : Nat}

theorem two_le_closedSize (inner : Nat) : 2 ≤ closedSize style depth inner := by
  unfold closedSize
  split <;> omega

/-- More in the brackets takes more, unless it were a single byte instead of nothing. -/
theorem closedSize_lt {small large : Nat} (h : small < large) (hlarge : 2 ≤ large) :
    closedSize style depth small < closedSize style depth large := by
  unfold closedSize
  split <;> split <;> omega

theorem size_writeItems (vs : List Json) :
    Utf8.size (writeItems style depth vs) = (vs.map (itemSize style depth)).sum := by
  induction vs with
  | nil => simp [writeItems]
  | cons v vs ih =>
      simp only [writeItems, Utf8.size_cons, Utf8.size_append, ih, List.map_cons, List.sum_cons,
        itemSize, size, show (',').utf8Size = 1 from rfl]
      omega

theorem size_writeMembers (ms : List (Json × Json)) :
    Utf8.size (writeMembers style depth ms) = (ms.map (memberSize style depth)).sum := by
  induction ms with
  | nil => simp [writeMembers]
  | cons m ms ih =>
      obtain ⟨k, v⟩ := m
      simp only [writeMembers, Utf8.size_cons, Utf8.size_append, ih, List.map_cons, List.sum_cons,
        memberSize, size, show (',').utf8Size = 1 from rfl]
      omega

theorem size_array (vs : List Json) :
    size style depth (.array vs) =
      closedSize style depth (vs.map (itemSize style (depth + 1))).sum := by
  cases vs with
  | nil => rfl
  | cons v vs =>
      have hsum : ((v :: vs).map (itemSize style (depth + 1))).sum ≠ 0 := by
        simp [itemSize]
      rw [closedSize, if_neg hsum]
      simp only [size, write, Utf8.size_cons, Utf8.size_append, size_writeItems, Utf8.size_nil,
        List.map_cons, List.sum_cons, itemSize, show ('[').utf8Size = 1 from rfl,
        show (']').utf8Size = 1 from rfl]
      omega

theorem size_object (ms : List (Json × Json)) :
    size style depth (.object ms) =
      closedSize style depth (ms.map (memberSize style (depth + 1))).sum := by
  cases ms with
  | nil => rfl
  | cons m ms =>
      obtain ⟨k, v⟩ := m
      have hsum : (((k, v) :: ms).map (memberSize style (depth + 1))).sum ≠ 0 := by
        simp [memberSize]
      rw [closedSize, if_neg hsum]
      simp only [size, write, Utf8.size_cons, Utf8.size_append, size_writeMembers, Utf8.size_nil,
        List.map_cons, List.sum_cons, memberSize, show ('\x7b').utf8Size = 1 from rfl,
        show ('\x7d').utf8Size = 1 from rfl]
      omega

theorem size_ofNat_pos (n : Nat) : 0 < size style depth (ofNat n) :=
  Utf8.size_pos Nat.toDigits_ne_nil

end

/-- A member of a record with what stands before it. -/
def fieldSize (style : Style) (depth : Nat) (m : String × Json) : Nat :=
  memberSize style depth (.text m.1, m.2)

theorem size_record {style : Style} {depth : Nat} (ms : List (String × Json)) :
    size style depth (record ms) =
      closedSize style depth (ms.map (fieldSize style (depth + 1))).sum := by
  rw [record, size_object, List.map_map]
  rfl

theorem two_le_fieldSize {style : Style} {depth : Nat} (m : String × Json) :
    2 ≤ fieldSize style depth m := by
  have hname : 0 < size style depth (.text m.1) := Utf8.size_pos (by simp [write, writeText])
  simp only [fieldSize, memberSize]
  omega

end Json

end TrialView
