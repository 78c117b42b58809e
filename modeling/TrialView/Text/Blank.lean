/-!
Blank characters, the trimming of text and the letters of ASCII. A character is blank when Unicode
gives it the property White_Space; there are twenty-five of them.
-/

namespace TrialView.Text

/-- Code points with the property White_Space, as ranges with both ends included. -/
def blankRanges : List (Nat × Nat) :=
  [(0x9, 0xD), (0x20, 0x20), (0x85, 0x85), (0xA0, 0xA0), (0x1680, 0x1680), (0x2000, 0x200A),
    (0x2028, 0x2029), (0x202F, 0x202F), (0x205F, 0x205F), (0x3000, 0x3000)]

def isBlank (c : Char) : Bool :=
  blankRanges.any fun r => r.1 ≤ c.toNat && c.toNat ≤ r.2

def allBlank (cs : List Char) : Bool :=
  cs.all isBlank

/-- The text without the blanks at both of its ends. -/
def trim (cs : List Char) : List Char :=
  ((cs.dropWhile isBlank).reverse.dropWhile isBlank).reverse

/-- Lower case for the letters of ASCII; every other character stays. -/
def asciiLower (cs : List Char) : List Char :=
  cs.map Char.toLower

theorem toNat_toLower (c : Char) :
    c.toLower.toNat = if 65 ≤ c.toNat ∧ c.toNat ≤ 90 then c.toNat + 32 else c.toNat := by
  delta Char.toLower
  grind [Char.toNat, UInt32.le_iff_toNat_le, UInt32.toNat_add]

theorem toNat_toUpper (c : Char) :
    c.toUpper.toNat = if 97 ≤ c.toNat ∧ c.toNat ≤ 122 then c.toNat - 32 else c.toNat := by
  delta Char.toUpper
  grind [Char.toNat, UInt32.le_iff_toNat_le, UInt32.toNat_add]

/-- No character outside ASCII has a lower case within it. -/
theorem toLower_eq_iff {c d : Char} (hd : d.toLower = d) :
    c.toLower = d ↔ c = d ∨ c = d.toUpper := by
  rw [← Char.toNat_inj, toNat_toLower] at hd
  simp only [← Char.toNat_inj, toNat_toLower, toNat_toUpper]
  grind

end TrialView.Text
