import TrialView.Text.Utf8
import Mathlib.Data.List.Basic

/-!
Text goes through bytes unchanged: what was encoded is decoded to the same text. Each of the four
lengths of a character is a case of its own, in which the first byte tells the length and the
remainders of the code point are put together again. A character that fits in seven bits is written
as its byte, which no other character has in its encoding.
-/

namespace TrialView.Text.Utf8

theorem char?_toNat (c : Char) : char? c.toNat = some c := by
  have hvalid : c.toNat.isValidChar := c.valid
  rw [char?, dif_pos hvalid]
  congr 1
  apply Char.ext
  exact UInt32.ofNat_toNat

theorem toNat_lt (c : Char) : c.toNat < 0x110000 := by
  rcases c.valid with h | ⟨_, h⟩
  · exact Nat.lt_trans h (by decide)
  · exact h

/-- A remainder in a continuation byte. -/
theorem continuation?_mod (n : Nat) :
    continuation? (UInt8.ofNat (n % 64 + 0x80)) = some (n % 64) := by
  have hbyte : (UInt8.ofNat (n % 64 + 0x80)).toNat = n % 64 + 0x80 :=
    UInt8.toNat_ofNat_of_lt' (Nat.lt_of_lt_of_le (m := 0xC0) (by omega) (by decide))
  rw [continuation?, hbyte, if_pos (by omega), Nat.add_sub_cancel]

theorem decodeChar?_append (c : Char) (rest : List UInt8) :
    decodeChar? (String.utf8EncodeChar c ++ rest) = some (c, rest) := by
  have hbound := toNat_lt c
  have hchar := char?_toNat c
  have hbyte (n : Nat) (hn : n < 256) : (UInt8.ofNat n).toNat = n :=
    UInt8.toNat_ofNat_of_lt' hn
  unfold String.utf8EncodeChar
  generalize hn : c.val.toNat = n
  have hn' : c.toNat = n := hn
  rw [hn'] at hbound hchar
  simp only
  split
  · next h1 =>
      have hlead : (UInt8.ofNat n).toNat = n := hbyte n (by omega)
      have hsmall : n < 0x80 := by omega
      simp [decodeChar?, hlead, hsmall, hchar]
  · split
    · next h1 h2 =>
        have hlead := hbyte (n / 64 % 0x20 + 0xC0) (by omega)
        have hcode : (n / 64 % 0x20 + 0xC0 - 0xC0) * 64 + n % 64 = n := by omega
        simp only [List.cons_append, List.nil_append, decodeChar?, hlead, continuation?_mod,
          Option.bind_eq_bind, Option.bind_some, hcode, hchar]
        rw [if_neg (by omega), if_pos (by omega), if_neg (by omega)]
        rfl
    · split
      · next h1 h2 h3 =>
          have hlead := hbyte (n / 4096 % 0x10 + 0xE0) (by omega)
          have hcode : ((n / 4096 % 0x10 + 0xE0 - 0xE0) * 64 + n / 64 % 64) * 64 + n % 64 = n := by
            omega
          simp only [List.cons_append, List.nil_append, decodeChar?, hlead, continuation?_mod,
            Option.bind_eq_bind, Option.bind_some, hcode, hchar]
          rw [if_neg (by omega), if_neg (by omega), if_pos (by omega), if_neg (by omega)]
          rfl
      · next h1 h2 h3 =>
          have hlead := hbyte (n / 262144 % 0x08 + 0xF0) (by omega)
          have hcode : (((n / 262144 % 0x08 + 0xF0 - 0xF0) * 64 + n / 4096 % 64) * 64
              + n / 64 % 64) * 64 + n % 64 = n := by
            omega
          simp only [List.cons_append, List.nil_append, decodeChar?, hlead, continuation?_mod,
            Option.bind_eq_bind, Option.bind_some, hcode, hchar]
          rw [if_neg (by omega), if_neg (by omega), if_neg (by omega), if_pos (by omega),
            if_neg (by omega)]
          rfl

theorem encode_cons (c : Char) (cs : List Char) :
    encode (c :: cs) = String.utf8EncodeChar c ++ encode cs := rfl

theorem encode_cons_ne_nil {c : Char} {cs : List Char} : encode (c :: cs) ≠ [] := by
  rw [← List.length_pos_iff, encode_cons, List.length_append, String.length_utf8EncodeChar]
  exact Nat.add_pos_left c.utf8Size_pos _

theorem encode_append (cs ds : List Char) : encode (cs ++ ds) = encode cs ++ encode ds := by
  simp [encode]

/-- By induction on the text; more steps than there are bytes make no difference. -/
theorem decodeWithin_encode {cs : List Char} {n : Nat} (h : (encode cs).length ≤ n) :
    decodeWithin n (encode cs) = some cs := by
  induction cs generalizing n with
  | nil => cases n <;> rfl
  | cons c cs ih =>
      have hlength : 0 < (String.utf8EncodeChar c).length := by
        rw [String.length_utf8EncodeChar]
        exact c.utf8Size_pos
      rw [encode_cons, List.length_append] at h
      obtain ⟨b, bs, hbs⟩ := List.exists_cons_of_length_pos hlength
      have hchar := decodeChar?_append c (encode cs)
      cases n with
      | zero => omega
      | succ n =>
          rw [encode_cons, hbs, List.cons_append, decodeWithin, ← List.cons_append, ← hbs, hchar]
          simp [ih (n := n) (by omega)]

theorem decode?_encode (cs : List Char) : decode? (encode cs) = some cs :=
  decodeWithin_encode (Nat.le_refl _)

theorem encode_inj {cs ds : List Char} : encode cs = encode ds ↔ cs = ds := by
  constructor
  · intro hbytes
    have htext := congrArg decode? hbytes
    rwa [decode?_encode, decode?_encode, Option.some.injEq] at htext
  · rintro rfl
    rfl

/-- The bytes of a character that does not fit in seven bits do not either. -/
theorem le_of_mem_utf8EncodeChar {c : Char} (hc : 0x80 ≤ c.toNat) :
    ∀ b ∈ String.utf8EncodeChar c, 0x80 ≤ b.toNat := by
  have hhigh (n : Nat) (hlow : 0x80 ≤ n) (hn : n < 256) : 0x80 ≤ (UInt8.ofNat n).toNat := by
    rwa [UInt8.toNat_ofNat_of_lt' hn]
  have hnot : ¬ c.val.toNat ≤ 0x7F := Nat.not_le.mpr hc
  unfold String.utf8EncodeChar
  simp only [if_neg hnot]
  split
  · simp only [List.forall_mem_cons, List.not_mem_nil, false_implies, implies_true, and_true]
    exact ⟨hhigh _ (by omega) (by omega), hhigh _ (by omega) (by omega)⟩
  · split
    · simp only [List.forall_mem_cons, List.not_mem_nil, false_implies, implies_true, and_true]
      exact ⟨hhigh _ (by omega) (by omega), hhigh _ (by omega) (by omega),
        hhigh _ (by omega) (by omega)⟩
    · simp only [List.forall_mem_cons, List.not_mem_nil, false_implies, implies_true, and_true]
      exact ⟨hhigh _ (by omega) (by omega), hhigh _ (by omega) (by omega),
        hhigh _ (by omega) (by omega), hhigh _ (by omega) (by omega)⟩

/-- A character that fits in seven bits is a byte by itself, which no other character has in its
encoding. -/
theorem ascii_mem_utf8EncodeChar {a c : Char} (ha : a.toNat < 0x80) :
    UInt8.ofNat a.toNat ∈ String.utf8EncodeChar c ↔ c = a := by
  have hbyte {d : Char} (hd : d.toNat < 0x80) : (UInt8.ofNat d.toNat).toNat = d.toNat :=
    UInt8.toNat_ofNat_of_lt' (Nat.lt_of_lt_of_le hd (by decide))
  by_cases hc : c.toNat < 0x80
  · have hlow : c.val.toNat ≤ 0x7F := Nat.le_of_lt_succ hc
    have hone : String.utf8EncodeChar c = [UInt8.ofNat c.toNat] := by
      simp only [String.utf8EncodeChar, if_pos hlow]
      rfl
    rw [hone, List.mem_singleton]
    constructor
    · intro hsame
      have hcode : a.toNat = c.toNat := by
        have hnat := congrArg UInt8.toNat hsame
        rwa [hbyte ha, hbyte hc] at hnat
      exact Char.ext (UInt32.toNat_inj.mp hcode.symm)
    · rintro rfl
      rfl
  · refine iff_of_false ?_ ?_
    · intro hmem
      have hhigh := le_of_mem_utf8EncodeChar (Nat.not_lt.mp hc) _ hmem
      rw [hbyte ha] at hhigh
      exact Nat.not_lt.mpr hhigh ha
    · rintro rfl
      exact hc ha

theorem ascii_mem_encode {a : Char} {cs : List Char} (ha : a.toNat < 0x80) :
    UInt8.ofNat a.toNat ∈ encode cs ↔ a ∈ cs := by
  simp only [encode, List.mem_flatMap, ascii_mem_utf8EncodeChar ha, exists_eq_right]

/-- The last byte of a text is a carriage return only if the last character is. -/
theorem getLast?_encode {cs : List Char} (h : (encode cs).getLast? = some 13) :
    cs.getLast? = some '\r' := by
  cases hlast : cs.getLast? with
  | none =>
      obtain rfl := List.getLast?_eq_none_iff.mp hlast
      cases h
  | some c =>
      obtain ⟨init, rfl⟩ := List.getLast?_eq_some_iff.mp hlast
      have hone : encode [c] = String.utf8EncodeChar c := List.append_nil _
      rw [encode_append, List.getLast?_append_of_ne_nil _ encode_cons_ne_nil, hone] at h
      have hmem : UInt8.ofNat '\r'.toNat ∈ String.utf8EncodeChar c := List.mem_of_getLast? h
      rw [ascii_mem_utf8EncodeChar (by decide)] at hmem
      rw [hmem]

theorem newline_mem_encode {cs : List Char} : 10 ∈ encode cs ↔ '\n' ∈ cs :=
  ascii_mem_encode (a := '\n') (by decide)

end TrialView.Text.Utf8
