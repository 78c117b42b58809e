/-!
Text as bytes. `encode` is the UTF-8 form of a text and `decode?` reads it back; the reader refuses
what the encoder never writes: stray continuation bytes, overlong forms, surrogates, and numbers
past the last code point.
-/

namespace TrialView.Text.Utf8

def encode (cs : List Char) : List UInt8 :=
  cs.flatMap String.utf8EncodeChar

/-- The character with this code point, if there is one. -/
def char? (n : Nat) : Option Char :=
  if h : n.isValidChar then some ⟨n.toUInt32, by
    have hn : n < UInt32.size := by
      rcases h with h | h
      · exact Nat.lt_trans h (by decide)
      · exact Nat.lt_trans h.2 (by decide)
    simpa [UInt32.isValidChar, Nat.toUInt32, UInt32.toNat_ofNat_of_lt' hn] using h⟩ else none

/-- The six bits that a continuation byte carries. -/
def continuation? (b : UInt8) : Option Nat :=
  if 0x80 ≤ b.toNat ∧ b.toNat < 0xC0 then some (b.toNat - 0x80) else none

/-- Reads one character. Each length has its own smallest code point, so no character has two
spellings. -/
def decodeChar? : List UInt8 → Option (Char × List UInt8)
  | [] => none
  | a :: rest =>
      if a.toNat < 0x80 then
        (char? a.toNat).map (·, rest)
      else if 0xC0 ≤ a.toNat ∧ a.toNat < 0xE0 then
        match rest with
        | b :: rest => do
            let n := (a.toNat - 0xC0) * 64 + (← continuation? b)
            if n < 0x80 then none else (char? n).map (·, rest)
        | _ => none
      else if 0xE0 ≤ a.toNat ∧ a.toNat < 0xF0 then
        match rest with
        | b :: c :: rest => do
            let n := ((a.toNat - 0xE0) * 64 + (← continuation? b)) * 64 + (← continuation? c)
            if n < 0x800 then none else (char? n).map (·, rest)
        | _ => none
      else if 0xF0 ≤ a.toNat ∧ a.toNat < 0xF8 then
        match rest with
        | b :: c :: d :: rest => do
            let n := (((a.toNat - 0xF0) * 64 + (← continuation? b)) * 64 + (← continuation? c)) * 64
              + (← continuation? d)
            if n < 0x10000 then none else (char? n).map (·, rest)
        | _ => none
      else none

/-- Reads at most as many characters as there are bytes. -/
def decodeWithin : Nat → List UInt8 → Option (List Char)
  | _, [] => some []
  | 0, _ :: _ => none
  | n + 1, b :: bs => do
      let (c, rest) ← decodeChar? (b :: bs)
      let cs ← decodeWithin n rest
      pure (c :: cs)

def decode? (bs : List UInt8) : Option (List Char) :=
  decodeWithin bs.length bs

end TrialView.Text.Utf8
