import TrialView.Json.Source
import TrialView.Proofs.Encoding.Tokens
import Mathlib.Data.List.TakeDrop

/-!
White space at the end of a text. No token needs it, and none reads on into it: a scanner that is
given a text with white space behind it leaves the white space behind whatever it leaves of the text
alone, and fails where it fails on the text alone. So a text has the same tokens with and without
it, and is decoded to the same.
-/

namespace TrialView.Json

/-- A scanner comes to the same on a text with and without a character at its end, which it leaves
where it is; and it takes some characters at least. -/
structure Stops {α : Type} (w : Char) (least : Nat) (scan : List Char → Option (α × List Char))
    (cs : List Char) : Prop where
  leaves : scan (cs ++ [w]) = (scan cs).map fun p => (p.1, p.2 ++ [w])
  takes : ∀ p, scan cs = some p → p.2.length + least ≤ cs.length

namespace Stops

variable {α β : Type} {w : Char} {n least : Nat} {scan inner : List Char → Option (α × List Char)}
  {cs rest : List Char}

/-- A scanner may go on as another one does on the rest of the text. -/
theorem of_rest (h : Stops w n inner rest) (hrest : rest.length + least ≤ cs.length + n)
    (halone : scan cs = inner rest) (hbehind : scan (cs ++ [w]) = inner (rest ++ [w])) :
    Stops w least scan cs where
  leaves := by rw [hbehind, h.leaves, halone]
  takes p hp := by
    have htakes := h.takes p (halone ▸ hp)
    omega

theorem bind {next : α × List Char → Option (β × List Char)} (h : Stops w least scan cs)
    (hnext : ∀ a rest, Stops w 0 (fun cs => next (a, cs)) rest) :
    Stops w least (fun cs => scan cs >>= next) cs where
  leaves := by
    simp only [h.leaves]
    cases scan cs with
    | none => rfl
    | some p => exact (hnext p.1 p.2).leaves
  takes q hq := by
    obtain ⟨p, hp, hq⟩ := Option.bind_eq_some_iff.mp hq
    have hfirst := h.takes p hp
    have hsecond := (hnext p.1 p.2).takes q hq
    omega

theorem map (h : Stops w least scan cs) (f : α → β) :
    Stops w least (fun cs => (scan cs).map fun p => (f p.1, p.2)) cs where
  leaves := by
    simp only [h.leaves, Option.map_map]
    rfl
  takes q hq := by
    obtain ⟨p, hp, rfl⟩ := Option.map_eq_some_iff.mp hq
    exact h.takes p hp

theorem pure (a : α) : Stops w 0 (fun cs => some (a, cs)) cs where
  leaves := rfl
  takes p hp := by
    obtain rfl := Option.some.inj hp
    exact Nat.le_refl _

theorem none : Stops w least (fun _ => (Option.none : Option (α × List Char))) cs where
  leaves := rfl
  takes _ hp := by cases hp

/-- A scanner that fails on a text with and without the character. -/
theorem of_none (halone : scan cs = Option.none) (hbehind : scan (cs ++ [w]) = Option.none) :
    Stops w least scan cs where
  leaves := by rw [hbehind, halone]; rfl
  takes p hp := by rw [halone] at hp; cases hp

/-- A scanner that takes nothing. -/
theorem of_pure {a : α} (halone : scan cs = some (a, cs))
    (hbehind : scan (cs ++ [w]) = some (a, cs ++ [w])) : Stops w 0 scan cs :=
  (Stops.pure a).of_rest (Nat.le_refl _) halone hbehind

end Stops

/-- A beginning without the character at the end of a text stands in the text before it. -/
theorem exists_append_of_not_mem {w : Char} {cs start rest : List Char} (hstart : w ∉ start)
    (h : cs ++ [w] = start ++ rest) : ∃ tail, cs = start ++ tail := by
  rcases List.eq_nil_or_concat rest with rfl | ⟨init, last, rfl⟩
  · exact absurd (h ▸ List.mem_append_right cs List.mem_cons_self) (by simpa using hstart)
  · have hends : cs ++ [w] = (start ++ init) ++ [last] := by simpa using h
    exact ⟨init, (List.append_inj' hends rfl).1⟩

section

variable {w : Char} (hw : isSpace w = true)

include hw

theorem eq_of_isSpace : w = ' ' ∨ w = '\t' ∨ w = '\n' ∨ w = '\r' := by
  simpa [isSpace, or_assoc] using hw

theorem isDigit_of_isSpace : w.isDigit = false := by
  rcases eq_of_isSpace hw with rfl | rfl | rfl | rfl <;> rfl

theorem hexDigit?_of_isSpace : hexDigit? w = none := by
  rcases eq_of_isSpace hw with rfl | rfl | rfl | rfl <;> rfl

theorem letterEscape?_of_isSpace : letterEscape? w = none := by
  rcases eq_of_isSpace hw with rfl | rfl | rfl | rfl <;> rfl

theorem span_isDigit_append_singleton (cs : List Char) :
    (cs ++ [w]).span Char.isDigit =
      ((cs.span Char.isDigit).1, (cs.span Char.isDigit).2 ++ [w]) := by
  have hdigit := isDigit_of_isSpace hw
  simp only [List.span_eq_takeWhile_dropWhile]
  induction cs with
  | nil => simp [hdigit]
  | cons c cs ih =>
      by_cases hc : c.isDigit
      · simpa [hc] using ih
      · simp [hc]

theorem stops_digits? (cs : List Char) : Stops w 1 digits? cs where
  leaves := by
    simp only [digits?, span_isDigit_append_singleton hw]
    split <;> rfl
  takes p hp := by
    obtain ⟨hsome, rfl⟩ : cs.takeWhile Char.isDigit ≠ [] ∧
        (cs.takeWhile Char.isDigit, cs.dropWhile Char.isDigit) = p := by
      simpa [digits?, List.span_eq_takeWhile_dropWhile] using hp
    have hpos := List.length_pos_iff.mpr hsome
    have hall := congrArg List.length (cs.takeWhile_append_dropWhile (p := Char.isDigit))
    rw [List.length_append] at hall
    change (cs.dropWhile Char.isDigit).length + 1 ≤ cs.length
    omega

theorem stops_fraction? (cs : List Char) : Stops w 0 fraction? cs := by
  have hpoint : w ≠ '.' := by rcases eq_of_isSpace hw with rfl | rfl | rfl | rfl <;> decide
  rcases cs with _ | ⟨c, cs⟩
  · exact .of_pure rfl (by simp [fraction?, hpoint])
  · by_cases hc : c = '.'
    · subst hc
      exact ((stops_digits? hw cs).map ('.' :: ·)).of_rest (by simp; omega) rfl rfl
    · exact .of_pure (a := []) (by simp [fraction?, hc]) (by simp [fraction?, hc])

theorem stops_exponent? (cs : List Char) : Stops w 0 exponent? cs := by
  have hmark : ¬ (w = 'e' ∨ w = 'E') ∧ w ≠ '+' ∧ w ≠ '-' := by
    rcases eq_of_isSpace hw with rfl | rfl | rfl | rfl <;> decide
  rcases cs with _ | ⟨c, cs⟩
  · exact .of_pure rfl (by simp [exponent?, hmark.1])
  · by_cases hc : c = 'e' ∨ c = 'E'
    · rcases cs with _ | ⟨sign, cs⟩
      · exact .of_none (by simp [exponent?, hc, digits?])
          (by simp [exponent?, hc, hmark.2, digits?, List.span_eq_takeWhile_dropWhile,
            isDigit_of_isSpace hw])
      · by_cases hplus : sign = '+'
        · subst hplus
          exact ((stops_digits? hw cs).map (c :: '+' :: ·)).of_rest (by simp; omega)
            (by simp [exponent?, hc]) (by simp [exponent?, hc])
        · by_cases hminus : sign = '-'
          · subst hminus
            exact ((stops_digits? hw cs).map (c :: '-' :: ·)).of_rest (by simp; omega)
              (by simp [exponent?, hc]) (by simp [exponent?, hc])
          · exact ((stops_digits? hw (sign :: cs)).map (c :: ·)).of_rest (by simp)
              (by simp [exponent?, hc, hplus, hminus]) (by simp [exponent?, hc, hplus, hminus])
    · exact .of_pure (a := []) (by simp [exponent?, hc]) (by simp [exponent?, hc])

theorem stops_whole? (cs : List Char) : Stops w 1 whole? cs := by
  apply (stops_digits? hw cs).bind
  intro ds rest
  dsimp only
  split
  · exact .none
  · exact .pure ds

theorem stops_unsigned? (cs : List Char) : Stops w 1 unsigned? cs :=
  (stops_whole? hw cs).bind fun ds rest =>
    (stops_fraction? hw rest).bind fun fs rest =>
      (stops_exponent? hw rest).bind fun es _ => .pure (ds ++ fs ++ es)

theorem stops_lexeme? (cs : List Char) : Stops w 1 lexeme? cs := by
  have hminus : w ≠ '-' := by rcases eq_of_isSpace hw with rfl | rfl | rfl | rfl <;> decide
  rcases cs with _ | ⟨c, cs⟩
  · exact (stops_unsigned? hw []).of_rest (Nat.le_refl _) rfl (by simp [lexeme?, hminus])
  · by_cases hc : c = '-'
    · subst hc
      exact ((stops_unsigned? hw cs).map ('-' :: ·)).of_rest (by simp) rfl rfl
    · exact (stops_unsigned? hw (c :: cs)).of_rest (Nat.le_refl _) (by simp [lexeme?, hc])
        (by simp [lexeme?, hc])

theorem unitEscape?_of_isSpace (a b c : Char) : unitEscape? a b c w = none := by
  simp [unitEscape?, hexDigit?_of_isSpace hw]

/-- A backslash and a `u` with fewer than four characters behind them escape nothing, also if white
space comes as the fourth. -/
theorem stops_pieces? (cs : List Char) : Stops w 1 pieces? cs := by
  have hother : w ≠ '"' ∧ w ≠ '\\' ∧ w ≠ 'u' := by
    rcases eq_of_isSpace hw with rfl | rfl | rfl | rfl <;> decide
  fun_induction pieces? cs with
  | case1 => exact .of_none rfl (by simp [pieces?_plain hother.1 hother.2.1, pieces?])
  | case2 rest => exact (Stops.pure []).of_rest (Nat.le_refl _) rfl rfl
  | case3 a b c d rest hunit => exact .of_none (by simp [pieces?, hunit]) (by simp [pieces?, hunit])
  | case4 a b c d rest n hunit ih =>
      exact (ih.map (.unit n :: ·)).of_rest (by simp) (by simp [pieces?, hunit])
        (by simp [pieces?, hunit])
  | case5 c rest hshort hletter =>
      refine .of_none (by simp [pieces?_escape hshort, hletter]) ?_
      by_cases hlast : ∃ a b d, c = 'u' ∧ rest = [a, b, d]
      · obtain ⟨a, b, d, rfl, rfl⟩ := hlast
        simp [pieces?, unitEscape?_of_isSpace hw]
      · have hshort' : ∀ a b d e tail,
            c = 'u' → rest ++ [w] = a :: b :: d :: e :: tail → False := by
          intro a b d e tail hc hrest
          rcases List.eq_nil_or_concat tail with rfl | ⟨init, last, rfl⟩
          · have hends : rest ++ [w] = [a, b, d] ++ [e] := hrest
            exact hlast ⟨a, b, d, hc, (List.append_inj' hends rfl).1⟩
          · have hends : rest ++ [w] = (a :: b :: d :: e :: init) ++ [last] := by simpa using hrest
            exact hshort a b d e init hc (List.append_inj' hends rfl).1
        have hnone := pieces?_escape hshort'
        simpa [hletter] using hnone
  | case6 c rest hshort e hletter ih =>
      have hother : c ≠ 'u' := by
        rintro rfl
        cases hletter
      have hread (cs : List Char) := @pieces?_escape c cs fun _ _ _ _ _ hc _ => hother hc
      exact (ih.map (.char e :: ·)).of_rest (by simp) (by simp [hread, hletter])
        (by simp [hread, hletter])
  | case7 c rest hquote hunit hescape hbad =>
      by_cases hslash : c = '\\'
      · subst hslash
        obtain rfl : rest = [] := by
          cases rest with
          | nil => rfl
          | cons d rest => exact absurd rfl (hescape d rest rfl)
        have hnone := @pieces?_escape w [] fun _ _ _ _ _ hu _ => hother.2.2 hu
        exact .of_none rfl (by simpa [letterEscape?_of_isSpace hw] using hnone)
      · have hcontrol : c.toNat < 32 := by simpa [hslash] using hbad
        exact .of_none (by simp [pieces?_plain hquote hslash, hcontrol])
          (by simp [pieces?_plain hquote hslash, hcontrol])
  | case8 c rest hquote hunit hescape hgood ih =>
      have hplain : 32 ≤ c.toNat ∧ c ≠ '\\' := by simpa using hgood
      have hread (cs : List Char) := @pieces?_plain c cs hquote hplain.2
      simp only [if_neg (Nat.not_lt.mpr hplain.1)] at hread
      exact (ih.map (.char c :: ·)).of_rest (by simp) (hread rest) (hread (rest ++ [w]))

/-- White space does not complete a constant. -/
theorem stops_next? (cs : List Char) : Stops w 1 Token.next? cs := by
  have hconstant : ∀ start ∈ ["[", "]", "\x7b", "\x7d", ",", ":", "\"", "null", "true", "false"],
      w ∉ start.toList := by
    rcases eq_of_isSpace hw with rfl | rfl | rfl | rfl <;> decide
  have hnot (start : List Char) (hstart : w ∉ start) (h : ∀ rest, cs = start ++ rest → False) :
      ∀ rest, cs ++ [w] = start ++ rest → False := by
    intro rest hrest
    obtain ⟨tail, htail⟩ := exists_append_of_not_mem hstart hrest
    exact h tail htail
  fun_cases Token.next? cs
  case case7 cs => exact ((stops_pieces? hw cs).map Token.ofPieces).of_rest (by simp) rfl rfl
  case case11 h1 h2 h3 h4 h5 h6 h7 h8 h9 h10 =>
    have hbehind := Token.next?.eq_11 (cs ++ [w])
      (hnot _ (hconstant "[" (by simp)) h1) (hnot _ (hconstant "]" (by simp)) h2)
      (hnot _ (hconstant "\x7b" (by simp)) h3) (hnot _ (hconstant "\x7d" (by simp)) h4)
      (hnot _ (hconstant "," (by simp)) h5) (hnot _ (hconstant ":" (by simp)) h6)
      (hnot _ (hconstant "\"" (by simp)) h7) (hnot _ (hconstant "null" (by simp)) h8)
      (hnot _ (hconstant "true" (by simp)) h9) (hnot _ (hconstant "false" (by simp)) h10)
    have halone := Token.next?.eq_11 cs h1 h2 h3 h4 h5 h6 h7 h8 h9 h10
    exact ((stops_lexeme? hw cs).map Token.number).of_rest (Nat.le_refl _) halone hbehind
  all_goals exact (Stops.pure _).of_rest (by simp) rfl rfl

/-- By induction on the steps: the character at the end needs one more of them. -/
theorem readWithin_append_space {fuel : Nat} {cs : List Char} (h : cs.length ≤ fuel) :
    Token.readWithin (fuel + 1) (cs ++ [w]) = Token.readWithin fuel cs := by
  induction fuel generalizing cs with
  | zero =>
      obtain rfl := List.length_eq_zero_iff.mp (Nat.le_zero.mp h)
      simp [Token.readWithin, hw]
  | succ fuel ih =>
      cases cs with
      | nil => simp [Token.readWithin, hw]
      | cons c cs =>
          have hnext := stops_next? hw (c :: cs)
          have hleaves : Token.next? (c :: (cs ++ [w])) = _ := hnext.leaves
          rw [List.length_cons] at h
          rw [List.cons_append, Token.readWithin, Token.readWithin]
          split
          · exact ih (by omega)
          · rw [hleaves]
            cases hscan : Token.next? (c :: cs) with
            | none => rfl
            | some p =>
                have htakes := hnext.takes p hscan
                rw [List.length_cons] at htakes
                exact congrArg (p.1 :: ·) (ih (by omega))

theorem read_append_space (cs : List Char) : Token.read (cs ++ [w]) = Token.read cs := by
  rw [Token.read, List.length_append]
  exact readWithin_append_space hw (Nat.le_refl _)

/-- White space at its end makes no difference to what a text is decoded to. -/
theorem decode_append_space {α : Type} (read : Json → Except Fault α) (cs : List Char) :
    decode read (cs ++ [w]) = decode read cs := by
  have hparse : parse (cs ++ [w]) = parse cs := by rw [parse, parse, read_append_space hw]
  rw [decode, decode, hparse]

end

end TrialView.Json
