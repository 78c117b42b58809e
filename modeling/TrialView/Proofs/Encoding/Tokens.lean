import TrialView.Json.Reader
import TrialView.Proofs.Encoding.Lexeme

/-!
The tokens of a tree: those of its parts with brackets, commas and colons. A text begins with some
tokens and goes on with a rest; what it begins with can be put together token by token. White space
has no tokens, and a number is a token in front of anything that it could not go on with.
-/

namespace TrialView.Json

mutual

/-- The tokens of a tree. -/
def tokens : Json → List Token
  | .null => [.null]
  | .bool b => [.bool b]
  | .number l => [.number l]
  | .text s => [.text s]
  | .unpaired => [.unpaired]
  | .array [] => [.openBracket, .closeBracket]
  | .array (v :: vs) => .openBracket :: (v.tokens ++ (itemTokens vs ++ [.closeBracket]))
  | .object [] => [.openBrace, .closeBrace]
  | .object ((k, v) :: ms) =>
      .openBrace :: (k.tokens ++ .colon :: (v.tokens ++ (memberTokens ms ++ [.closeBrace])))
  | .broken => [.broken]

/-- The tokens of the items after the first. -/
def itemTokens : List Json → List Token
  | [] => []
  | v :: vs => .comma :: (v.tokens ++ itemTokens vs)

/-- The tokens of the members after the first. -/
def memberTokens : List (Json × Json) → List Token
  | [] => []
  | (k, v) :: ms => .comma :: (k.tokens ++ .colon :: (v.tokens ++ memberTokens ms))

end

/-- A text begins with some tokens and goes on with a rest, within whatever bound it is read. -/
def Reads (cs : List Char) (ts : List Token) (rest : List Char) : Prop :=
  ∀ fuel, cs.length ≤ fuel →
    ∃ left, rest.length ≤ left ∧ Token.readWithin fuel cs = ts ++ Token.readWithin left rest

section

variable {cs mid rest : List Char} {ts us : List Token} {t : Token} {c : Char}

theorem Reads.refl : Reads cs [] cs :=
  fun fuel hfuel => ⟨fuel, hfuel, rfl⟩

theorem Reads.append (hfirst : Reads cs ts mid) (hsecond : Reads mid us rest) :
    Reads cs (ts ++ us) rest := by
  intro fuel hfuel
  obtain ⟨between, hbetween, hts⟩ := hfirst fuel hfuel
  obtain ⟨left, hleft, hus⟩ := hsecond between hbetween
  exact ⟨left, hleft, by rw [hts, hus, List.append_assoc]⟩

theorem Reads.cons (hfirst : Reads cs [t] mid) (hsecond : Reads mid us rest) :
    Reads cs (t :: us) rest :=
  hfirst.append hsecond

/-- White space has no tokens. -/
theorem Reads.space (hspace : isSpace c = true) (h : Reads cs ts rest) :
    Reads (c :: cs) ts rest := by
  intro fuel hfuel
  rw [List.length_cons] at hfuel
  obtain ⟨bound, rfl⟩ : ∃ bound, fuel = bound + 1 := ⟨fuel - 1, by omega⟩
  obtain ⟨left, hleft, hts⟩ := h bound (by omega)
  exact ⟨left, hleft, by rw [Token.readWithin, if_pos hspace, hts]⟩

theorem reads_token (hspace : isSpace c = false)
    (hnext : Token.next? (c :: cs) = some (t, rest)) (hrest : rest.length ≤ cs.length) :
    Reads (c :: cs) [t] rest := by
  intro fuel hfuel
  rw [List.length_cons] at hfuel
  obtain ⟨bound, rfl⟩ : ∃ bound, fuel = bound + 1 := ⟨fuel - 1, by omega⟩
  refine ⟨bound, by omega, ?_⟩
  simp [Token.readWithin, hspace, hnext]

/-- A text that is read to its end has these tokens and no others. -/
theorem Reads.read_eq (h : Reads cs ts []) : Token.read cs = ts := by
  obtain ⟨left, _, hts⟩ := h cs.length (Nat.le_refl _)
  rw [Token.read, hts, Token.readWithin, List.append_nil]

theorem reads_openBracket : Reads ('[' :: rest) [.openBracket] rest :=
  reads_token rfl rfl (Nat.le_refl _)

theorem reads_closeBracket : Reads (']' :: rest) [.closeBracket] rest :=
  reads_token rfl rfl (Nat.le_refl _)

theorem reads_openBrace : Reads ('\x7b' :: rest) [.openBrace] rest :=
  reads_token rfl rfl (Nat.le_refl _)

theorem reads_closeBrace : Reads ('\x7d' :: rest) [.closeBrace] rest :=
  reads_token rfl rfl (Nat.le_refl _)

theorem reads_comma : Reads (',' :: rest) [.comma] rest :=
  reads_token rfl rfl (Nat.le_refl _)

theorem reads_colon : Reads (':' :: rest) [.colon] rest :=
  reads_token rfl rfl (Nat.le_refl _)

end

/-- What a backslash escapes, other than a unit by four digits. -/
theorem pieces?_escape {c : Char} {cs : List Char}
    (h : ∀ a b d e rest, c = 'u' → cs = a :: b :: d :: e :: rest → False) :
    pieces? ('\\' :: c :: cs) =
      match letterEscape? c with
      | none => none
      | some e => (pieces? cs).map fun p => (.char e :: p.1, p.2) :=
  pieces?.eq_4 _ _ h

theorem pieces?_plain {c : Char} {cs : List Char} (hquote : c ≠ '"') (hslash : c ≠ '\\') :
    pieces? (c :: cs) =
      if c.toNat < 0x20 then none else (pieces? cs).map fun p => (.char c :: p.1, p.2) := by
  rw [pieces?]
  · simp [hslash]
  all_goals simp [hquote, hslash]

section

variable {rest : List Char}

/-- No other token begins with what a lexeme begins with. -/
theorem next?_lexeme {l : List Char} (h : IsLexeme l) (hrest : EndsNumber rest) :
    Token.next? (l ++ rest) = some (.number l, rest) := by
  obtain ⟨c, cs, rfl, hc⟩ := h.exists_cons
  have hfirst : ∀ d ∈ ['[', ']', '\x7b', '\x7d', ',', ':', '"', 'n', 't', 'f'], c ≠ d := by
    intro d hd hcd
    subst hcd
    have hnone : ∀ d ∈ ['[', ']', '\x7b', '\x7d', ',', ':', '"', 'n', 't', 'f'],
        d.isDigit = false ∧ d ≠ '-' := by simp
    simp [hnone c hd] at hc
  have hread := lexeme?_append h hrest
  rw [List.cons_append] at hread ⊢
  rw [Token.next?.eq_def]
  split
  case h_11 => simp [hread]
  all_goals next hother => exact absurd (List.cons.inj hother).1 (hfirst _ (by simp))

theorem reads_number {l : List Char} (h : IsLexeme l) (hrest : EndsNumber rest) :
    Reads (l ++ rest) [.number l] rest := by
  have hnext := next?_lexeme h hrest
  obtain ⟨c, cs, rfl, hc⟩ := h.exists_cons
  have hspace : isSpace c = false := by
    rcases hc with hc | rfl
    · by_contra hspace
      simp only [Bool.not_eq_false, isSpace, Bool.or_eq_true, decide_eq_true_eq] at hspace
      rcases hspace with ((rfl | rfl) | rfl) | rfl <;> contradiction
    · rfl
  exact reads_token hspace hnext (by simp)

end

end TrialView.Json
