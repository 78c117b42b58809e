import TrialView.Json.Source
import TrialView.Proofs.Encoding.Grammar

/-!
A text is read as the tree that it spells. The trees of texts are those without a broken place,
whose numbers are lexemes. Such a tree is read off its tokens with as many steps to go as it has
tokens, since each step into an array or object leaves a bracket behind. Hence a record is decoded
from a text as it is from the tree itself.
-/

namespace TrialView.Json

/-- A tree that some text may spell. -/
inductive Proper : Json → Prop
  | null : Proper .null
  | bool (value : Bool) : Proper (.bool value)
  | number {l : List Char} (h : IsLexeme l) : Proper (.number l)
  | text (s : String) : Proper (.text s)
  | unpaired : Proper .unpaired
  | array {vs : List Json} (h : ∀ v ∈ vs, Proper v) : Proper (.array vs)
  | object {ms : List (Json × Json)} (hname : ∀ m ∈ ms, m.1.isName = true)
      (hvalues : ∀ m ∈ ms, Proper m.2) : Proper (.object ms)

section

variable {v : Json} {vs : List Json} {ms : List (Json × Json)} {cs : List Char}

theorem proper_of_isName (h : v.isName = true) : Proper v := by
  cases v with
  | text s => exact .text s
  | unpaired => exact .unpaired
  | _ => cases h

theorem Spells.proper (h : Spells v cs) : Proper v := by
  induction h with
  | null => exact .null
  | bool value => exact .bool value
  | number h => exact .number h
  | string _ =>
      unfold ofPieces
      split
      · exact .text _
      · exact .unpaired
  | before _ _ ih => exact ih
  | behind _ _ ih => exact ih
  | emptyArray _ => exact .array (by simp)
  | array _ _ ih =>
      apply Proper.array
      simpa using ih
  | emptyObject _ => exact .object (by simp) (by simp)
  | object _ hname _ _ _ ihValues =>
      apply Proper.object
      · simp only [List.forall_mem_map]
        exact hname
      · simp only [List.forall_mem_map]
        exact ihValues

/-- No tree begins with what ends an array or an object. -/
theorem Proper.tokens_eq_cons (h : Proper v) :
    ∃ t ts, v.tokens = t :: ts ∧ t ≠ .closeBracket ∧ t ≠ .closeBrace := by
  cases h with
  | null => exact ⟨_, _, rfl, by simp⟩
  | bool value => exact ⟨_, _, rfl, by simp⟩
  | number hlexeme => exact ⟨_, _, rfl, by simp⟩
  | text s => exact ⟨_, _, rfl, by simp⟩
  | unpaired => exact ⟨_, _, rfl, by simp⟩
  | @array vs _ => cases vs <;> exact ⟨_, _, rfl, by simp⟩
  | @object ms _ _ => cases ms <;> exact ⟨_, _, rfl, by simp⟩

theorem areWhole_eq (vs : List Json) : areWhole vs = vs.all isWhole := by
  induction vs with
  | nil => rfl
  | cons v vs ih => rw [areWhole, List.all_cons, ih]

theorem areWholeMembers_eq (ms : List (Json × Json)) :
    areWholeMembers ms = ms.all fun m => m.1.isName && m.2.isWhole := by
  induction ms with
  | nil => rfl
  | cons m ms ih => rw [areWholeMembers, List.all_cons, ih]

/-- What a text can spell is JSON throughout. -/
theorem Proper.isWhole (h : Proper v) : v.isWhole = true := by
  induction h with
  | null => rfl
  | bool _ => rfl
  | number _ => rfl
  | text _ => rfl
  | unpaired => rfl
  | array _ ih =>
      rw [Json.isWhole, areWhole_eq, List.all_eq_true]
      exact ih
  | object hname _ ih =>
      rw [Json.isWhole, areWholeMembers_eq, List.all_eq_true]
      intro m hm
      rw [hname m hm, ih m hm]
      rfl

/-- A tree is found at the front of its tokens within as many steps as it has tokens. -/
def Found (v : Json) : Prop :=
  ∀ fuel rest, v.tokens.length ≤ fuel → value fuel (v.tokens ++ rest) = (v, some rest)

/-- Something is found in the first step, which is there since a tree has tokens. -/
theorem Found.of_step (hsome : v.tokens ≠ [])
    (h : ∀ fuel rest, v.tokens.length ≤ fuel + 1 →
      value (fuel + 1) (v.tokens ++ rest) = (v, some rest)) : v.Found := by
  intro fuel rest hfuel
  have hpos : 0 < v.tokens.length := List.length_pos_iff.mpr hsome
  obtain ⟨bound, rfl⟩ : ∃ bound, fuel = bound + 1 := ⟨fuel - 1, by omega⟩
  exact h bound rest hfuel

theorem items_tokens (hv : v.Found) (hvs : ∀ w ∈ vs, w.Found) (fuel : Nat) (rest : List Token)
    (hfuel : v.tokens.length + (itemTokens vs).length < fuel) :
    items fuel (v.tokens ++ (itemTokens vs ++ .closeBracket :: rest)) = (v :: vs, some rest) := by
  induction vs generalizing v fuel with
  | nil =>
      obtain ⟨bound, rfl⟩ : ∃ bound, fuel = bound + 1 := ⟨fuel - 1, by omega⟩
      simp [items, itemTokens, hv bound (.closeBracket :: rest) (by omega)]
  | cons w ws ih =>
      obtain ⟨bound, rfl⟩ : ∃ bound, fuel = bound + 1 := ⟨fuel - 1, by omega⟩
      simp only [itemTokens, List.length_cons, List.length_append] at hfuel
      have hfirst := hv bound
        (.comma :: (w.tokens ++ (itemTokens ws ++ .closeBracket :: rest))) (by omega)
      have hothers := ih (hvs w List.mem_cons_self)
        (fun u hu => hvs u (List.mem_cons_of_mem _ hu)) bound (by omega)
      simp [items, itemTokens, hfirst, hothers]

theorem members_tokens {k : Json} (hk : k.Found) (hv : v.Found) (hnames : ∀ m ∈ ms, m.1.Found)
    (hvalues : ∀ m ∈ ms, m.2.Found) (fuel : Nat) (rest : List Token)
    (hfuel : k.tokens.length + v.tokens.length + (memberTokens ms).length < fuel) :
    members fuel (k.tokens ++ .colon :: (v.tokens ++ (memberTokens ms ++ .closeBrace :: rest))) =
      ((k, v) :: ms, some rest) := by
  induction ms generalizing k v fuel with
  | nil =>
      obtain ⟨bound, rfl⟩ : ∃ bound, fuel = bound + 1 := ⟨fuel - 1, by omega⟩
      have hname := hk bound (.colon :: (v.tokens ++ .closeBrace :: rest)) (by omega)
      have hvalue := hv bound (.closeBrace :: rest) (by omega)
      simp [members, memberTokens, hname, hvalue]
  | cons m ms ih =>
      obtain ⟨l, w⟩ := m
      obtain ⟨bound, rfl⟩ : ∃ bound, fuel = bound + 1 := ⟨fuel - 1, by omega⟩
      simp only [memberTokens, List.length_cons, List.length_append] at hfuel
      have hname := hk bound (.colon :: (v.tokens ++ .comma ::
        (l.tokens ++ .colon :: (w.tokens ++ (memberTokens ms ++ .closeBrace :: rest))))) (by omega)
      have hvalue := hv bound (.comma ::
        (l.tokens ++ .colon :: (w.tokens ++ (memberTokens ms ++ .closeBrace :: rest)))) (by omega)
      have hl : l.Found := hnames _ List.mem_cons_self
      have hw : w.Found := hvalues _ List.mem_cons_self
      have hothers := ih hl hw
        (fun m hm => hnames m (List.mem_cons_of_mem _ hm))
        (fun m hm => hvalues m (List.mem_cons_of_mem _ hm)) bound (by omega)
      simp [members, memberTokens, hname, hvalue, hothers]

theorem found_of_isName (h : v.isName = true) : v.Found := by
  cases v with
  | text _ => exact .of_step (by simp [tokens]) fun _ _ _ => rfl
  | unpaired => exact .of_step (by simp [tokens]) fun _ _ _ => rfl
  | _ => cases h

/-- By induction on how the tree is built. Inside of brackets the first token shows that the array
or object is not an empty one. -/
theorem Proper.found (h : Proper v) : v.Found := by
  induction h with
  | null => exact .of_step (by simp [tokens]) fun _ _ _ => rfl
  | bool _ => exact .of_step (by simp [tokens]) fun _ _ _ => rfl
  | number _ => exact .of_step (by simp [tokens]) fun _ _ _ => rfl
  | text s => exact found_of_isName rfl
  | unpaired => exact found_of_isName rfl
  | @array vs hvs ih =>
      cases vs with
      | nil => exact .of_step (by simp [tokens]) fun _ _ _ => rfl
      | cons v vs =>
          refine .of_step (by simp [tokens]) fun fuel rest hfuel => ?_
          simp only [tokens, List.length_cons, List.length_append, List.length_nil] at hfuel
          obtain ⟨t, ts, htokens, hopen, _⟩ := (hvs v List.mem_cons_self).tokens_eq_cons
          have hitems := items_tokens (ih v List.mem_cons_self)
            (fun w hw => ih w (List.mem_cons_of_mem _ hw)) fuel rest (by omega)
          simp only [htokens, List.cons_append] at hitems
          simp [tokens, value, htokens, hopen, hitems]
  | @object ms hname _ ihValues =>
      cases ms with
      | nil => exact .of_step (by simp [tokens]) fun _ _ _ => rfl
      | cons m ms =>
          obtain ⟨k, v⟩ := m
          refine .of_step (by simp [tokens]) fun fuel rest hfuel => ?_
          simp only [tokens, List.length_cons, List.length_append, List.length_nil] at hfuel
          have hk : k.isName = true := hname _ List.mem_cons_self
          obtain ⟨t, ts, htokens, _, hopen⟩ := (proper_of_isName hk).tokens_eq_cons
          have hvalue : v.Found := ihValues _ List.mem_cons_self
          have hmembers := members_tokens (found_of_isName hk) hvalue
            (fun m hm => found_of_isName (hname m (List.mem_cons_of_mem _ hm)))
            (fun m hm => ihValues m (List.mem_cons_of_mem _ hm)) fuel rest (by omega)
          simp only [htokens, List.cons_append] at hmembers
          simp [tokens, value, htokens, hopen, hmembers]

/-- A text is read as the tree that it spells. -/
theorem Spells.parse_eq (h : Spells v cs) : parse cs = (v, true) := by
  have hvalue := h.proper.found (2 * v.tokens.length + 1) [] (by omega)
  rw [List.append_nil] at hvalue
  simp [parse, h.read_eq, hvalue]

/-- To read a text is to read the tree that it spells. -/
theorem Spells.decode_eq {α : Type} (h : Spells v cs) (read : Json → Except Fault α) :
    decode read cs = read v := by
  rw [decode, h.parse_eq]
  cases hread : read v <;> simp [hread]

end

end TrialView.Json
