import TrialView.Proofs.Encoding.Tokens
import Mathlib.Data.List.Basic

/-!
The grammar of JSON. A text spells a tree, in any of the ways in which the grammar allows it: white
space may stand around every value and every name, a character of a string stands for itself or is
escaped, and the mark and the sign of an exponent may be written in each of their forms. The tree
keeps everything but white space and the choice of escapes, so an object has its members in their
order and may have a name more than once. A text that spells a tree is read as the tokens of the
tree.
-/

namespace TrialView

/-- How a part of a string may be spelled. -/
inductive Json.Piece.Spells : Json.Piece → List Char → Prop
  | plain {c : Char} (hprintable : 0x20 ≤ c.toNat) (hquote : c ≠ '"') (hslash : c ≠ '\\') :
      Spells (.char c) [c]
  | letter {c e : Char} (h : letterEscape? c = some e) : Spells (.char e) ['\\', c]
  | unit {a b c d : Char} {n : Nat} (h : unitEscape? a b c d = some n) :
      Spells (.unit n) ['\\', 'u', a, b, c, d]

namespace Json

/-- The leaf for the parts of a string. -/
def ofPieces (ps : List Piece) : Json :=
  match Piece.assemble ps with
  | some cs => .text (String.ofList cs)
  | none => .unpaired

/-- The texts that spell a tree. The parts of an array or object come with their texts. -/
inductive Spells : Json → List Char → Prop
  | null : Spells .null "null".toList
  | bool (value : Bool) : Spells (.bool value) (toString value).toList
  | number {l : List Char} (h : IsLexeme l) : Spells (.number l) l
  | string {parts : List (Piece × List Char)} (h : ∀ p ∈ parts, p.1.Spells p.2) :
      Spells (ofPieces (parts.map Prod.fst)) ('"' :: (parts.flatMap Prod.snd ++ ['"']))
  | before {v : Json} {cs : List Char} {c : Char} (hspace : isSpace c = true) (h : Spells v cs) :
      Spells v (c :: cs)
  | behind {v : Json} {cs : List Char} {c : Char} (hspace : isSpace c = true) (h : Spells v cs) :
      Spells v (cs ++ [c])
  | emptyArray {cs : List Char} (hspace : ∀ c ∈ cs, isSpace c = true) :
      Spells (.array []) ('[' :: (cs ++ [']']))
  | array {parts : List (Json × List Char)} (hsome : parts ≠ []) (h : ∀ p ∈ parts, Spells p.1 p.2) :
      Spells (.array (parts.map Prod.fst))
        ('[' :: ([','].intercalate (parts.map Prod.snd) ++ [']']))
  | emptyObject {cs : List Char} (hspace : ∀ c ∈ cs, isSpace c = true) :
      Spells (.object []) ('\x7b' :: (cs ++ ['\x7d']))
  | object {parts : List ((Json × List Char) × (Json × List Char))} (hsome : parts ≠ [])
      (hname : ∀ p ∈ parts, p.1.1.isName = true) (hnames : ∀ p ∈ parts, Spells p.1.1 p.1.2)
      (hvalues : ∀ p ∈ parts, Spells p.2.1 p.2.2) :
      Spells (.object (parts.map fun p => (p.1.1, p.2.1)))
        ('\x7b' :: ([','].intercalate (parts.map fun p => p.1.2 ++ ':' :: p.2.2) ++ ['\x7d']))

/-- The texts that spell items, with commas between them. -/
def SpellsItems (vs : List Json) (cs : List Char) : Prop :=
  ∃ parts : List (Json × List Char), (∀ p ∈ parts, Spells p.1 p.2) ∧
    parts.map Prod.fst = vs ∧ [','].intercalate (parts.map Prod.snd) = cs

/-- The texts that spell members, with commas between them. -/
def SpellsMembers (ms : List (Json × Json)) (cs : List Char) : Prop :=
  ∃ parts : List ((Json × List Char) × (Json × List Char)),
    (∀ p ∈ parts, p.1.1.isName = true ∧ Spells p.1.1 p.1.2 ∧ Spells p.2.1 p.2.2) ∧
      parts.map (fun p => (p.1.1, p.2.1)) = ms ∧
        [','].intercalate (parts.map fun p => p.1.2 ++ ':' :: p.2.2) = cs

section

variable {k v w : Json} {vs : List Json} {m : Json × Json} {ms : List (Json × Json)}
  {ks cs ds : List Char}

theorem SpellsItems.one (h : Spells v cs) : SpellsItems [v] cs :=
  ⟨[(v, cs)], by simpa using h, rfl, by simp⟩

theorem SpellsItems.more (h : Spells v cs) (hrest : SpellsItems (w :: vs) ds) :
    SpellsItems (v :: w :: vs) (cs ++ ',' :: ds) := by
  obtain ⟨parts, hparts, htrees, rfl⟩ := hrest
  obtain ⟨p, parts, rfl, -, -⟩ := List.map_eq_cons_iff.mp htrees
  refine ⟨(v, cs) :: p :: parts, ?_, ?_, ?_⟩
  · rw [List.forall_mem_cons]
    exact ⟨h, hparts⟩
  · rw [List.map_cons, htrees]
  · simp [List.intercalate_cons_cons]

theorem Spells.of_items (h : SpellsItems (v :: vs) cs) :
    Spells (.array (v :: vs)) ('[' :: (cs ++ [']'])) := by
  obtain ⟨parts, hparts, htrees, rfl⟩ := h
  rw [← htrees]
  apply Spells.array _ hparts
  rintro rfl
  cases htrees

theorem SpellsMembers.one (hname : k.isName = true) (hk : Spells k ks) (hv : Spells v cs) :
    SpellsMembers [(k, v)] (ks ++ ':' :: cs) :=
  ⟨[((k, ks), (v, cs))], by simpa using ⟨hname, hk, hv⟩, rfl, by simp⟩

theorem SpellsMembers.more (hname : k.isName = true) (hk : Spells k ks) (hv : Spells v cs)
    (hrest : SpellsMembers (m :: ms) ds) :
    SpellsMembers ((k, v) :: m :: ms) (ks ++ ':' :: cs ++ ',' :: ds) := by
  obtain ⟨parts, hparts, htrees, rfl⟩ := hrest
  obtain ⟨p, parts, rfl, -, -⟩ := List.map_eq_cons_iff.mp htrees
  refine ⟨((k, ks), (v, cs)) :: p :: parts, ?_, ?_, ?_⟩
  · rw [List.forall_mem_cons]
    exact ⟨⟨hname, hk, hv⟩, hparts⟩
  · rw [List.map_cons, htrees]
  · simp [List.intercalate_cons_cons]

theorem Spells.of_members (h : SpellsMembers (m :: ms) cs) :
    Spells (.object (m :: ms)) ('\x7b' :: (cs ++ ['\x7d'])) := by
  obtain ⟨parts, hparts, htrees, rfl⟩ := h
  rw [← htrees]
  apply Spells.object
  · rintro rfl
    cases htrees
  · exact fun p hp => (hparts p hp).1
  · exact fun p hp => (hparts p hp).2.1
  · exact fun p hp => (hparts p hp).2.2

end

section

variable {rest : List Char}

theorem tokens_ofPieces (ps : List Piece) : (ofPieces ps).tokens = [Token.ofPieces ps] := by
  unfold ofPieces Token.ofPieces
  cases Piece.assemble ps <;> rfl

theorem Piece.Spells.pieces?_append {p : Piece} {cs : List Char} (h : p.Spells cs) :
    pieces? (cs ++ rest) = (pieces? rest).map fun q => (p :: q.1, q.2) := by
  cases h with
  | plain hprintable hquote hslash => simp [pieces?_plain hquote hslash, Nat.not_lt.mpr hprintable]
  | @letter c e h =>
      have hother : c ≠ 'u' := by
        rintro rfl
        cases h
      have hread := @pieces?_escape c rest fun _ _ _ _ _ hc _ => hother hc
      simpa [h] using hread
  | unit h => simp [pieces?, h]

theorem pieces?_spelled {parts : List (Piece × List Char)} (h : ∀ p ∈ parts, p.1.Spells p.2) :
    pieces? (parts.flatMap Prod.snd ++ '"' :: rest) = some (parts.map Prod.fst, rest) := by
  induction parts with
  | nil => rfl
  | cons p parts ih =>
      rw [List.forall_mem_cons] at h
      rw [List.flatMap_cons, List.append_assoc, h.1.pieces?_append, ih h.2]
      rfl

theorem reads_string {parts : List (Piece × List Char)} (h : ∀ p ∈ parts, p.1.Spells p.2) :
    Reads ('"' :: (parts.flatMap Prod.snd ++ '"' :: rest))
      [Token.ofPieces (parts.map Prod.fst)] rest := by
  apply reads_token rfl
  · rw [Token.next?, pieces?_spelled h]
    rfl
  · simp
    omega

theorem reads_spaces {cs : List Char} (h : ∀ c ∈ cs, isSpace c = true) :
    Reads (cs ++ rest) [] rest := by
  induction cs with
  | nil => exact .refl
  | cons c cs ih =>
      rw [List.forall_mem_cons] at h
      exact .space h.1 (ih h.2)

theorem endsNumber_space {c : Char} (rest : List Char) (h : isSpace c = true) :
    EndsNumber (c :: rest) := by
  apply endsNumber_cons
  simp only [isSpace, Bool.or_eq_true, decide_eq_true_eq] at h
  rcases h with ((rfl | rfl) | rfl) | rfl <;> rfl

end

/-- Wherever a text stands in front of something that ends numbers, it is read as the tokens of a
tree. -/
def ReadsAs (v : Json) (cs : List Char) : Prop :=
  ∀ rest, EndsNumber rest → Reads (cs ++ rest) v.tokens rest

theorem intercalate_cons (c : Char) (cs : List Char) (texts : List (List Char)) :
    [c].intercalate (cs :: texts) = cs ++ texts.flatMap (c :: ·) := by
  induction texts generalizing cs with
  | nil => simp
  | cons text texts ih =>
      rw [List.intercalate_cons_cons, ih, List.flatMap_cons, List.append_assoc]
      rfl

section

variable {rest : List Char}

theorem endsNumber_flatMap (texts : List (List Char)) (h : EndsNumber rest) :
    EndsNumber (texts.flatMap (',' :: ·) ++ rest) := by
  cases texts with
  | nil => exact h
  | cons text texts => exact endsNumber_cons rfl

theorem reads_itemTokens {parts : List (Json × List Char)} (h : ∀ p ∈ parts, ReadsAs p.1 p.2)
    (hrest : EndsNumber rest) :
    Reads ((parts.map Prod.snd).flatMap (',' :: ·) ++ rest)
      (itemTokens (parts.map Prod.fst)) rest := by
  induction parts with
  | nil => exact .refl
  | cons p parts ih =>
      rw [List.forall_mem_cons] at h
      have hitem := h.1 _ (endsNumber_flatMap (parts.map Prod.snd) hrest)
      have hall := reads_comma.cons (hitem.append (ih h.2))
      simpa [itemTokens] using hall

theorem reads_member {k v : Json} {ks cs : List Char} (hk : ReadsAs k ks) (hv : ReadsAs v cs)
    (hrest : EndsNumber rest) :
    Reads (ks ++ ':' :: (cs ++ rest)) (k.tokens ++ .colon :: v.tokens) rest :=
  (hk _ (endsNumber_cons rfl)).append (reads_colon.cons (hv rest hrest))

theorem reads_memberTokens {parts : List ((Json × List Char) × (Json × List Char))}
    (hnames : ∀ p ∈ parts, ReadsAs p.1.1 p.1.2) (hvalues : ∀ p ∈ parts, ReadsAs p.2.1 p.2.2)
    (hrest : EndsNumber rest) :
    Reads ((parts.map fun p => p.1.2 ++ ':' :: p.2.2).flatMap (',' :: ·) ++ rest)
      (memberTokens (parts.map fun p => (p.1.1, p.2.1))) rest := by
  induction parts with
  | nil => exact .refl
  | cons p parts ih =>
      rw [List.forall_mem_cons] at hnames hvalues
      have hmember := reads_member hnames.1 hvalues.1
        (endsNumber_flatMap (parts.map fun p => p.1.2 ++ ':' :: p.2.2) hrest)
      have hall := reads_comma.cons (hmember.append (ih hnames.2 hvalues.2))
      simpa [memberTokens] using hall

end

/-- By induction on how the tree is spelled; what follows a part of an array or object is a comma or
the bracket that closes it. -/
theorem Spells.readsAs {v : Json} {cs : List Char} (h : Spells v cs) : ReadsAs v cs := by
  induction h with
  | null =>
      intro rest _
      exact reads_token rfl rfl (by simp; omega)
  | bool value =>
      intro rest _
      cases value <;> exact reads_token rfl rfl (by simp; omega)
  | number h =>
      intro rest hrest
      exact reads_number h hrest
  | string h =>
      intro rest _
      rw [tokens_ofPieces, List.cons_append, List.append_assoc]
      exact reads_string h
  | before hspace _ ih =>
      intro rest hrest
      exact .space hspace (ih rest hrest)
  | behind hspace _ ih =>
      intro rest _
      have hbefore := ih _ (endsNumber_space rest hspace)
      have hall := hbefore.append (.space hspace .refl)
      simpa using hall
  | emptyArray hspace =>
      intro rest _
      have hopen := reads_openBracket.cons (@reads_spaces (']' :: rest) _ hspace)
      have hall := hopen.append reads_closeBracket
      simpa [tokens] using hall
  | @array parts hsome _ ih =>
      intro rest _
      obtain ⟨p, parts, rfl⟩ := List.exists_cons_of_ne_nil hsome
      rw [List.forall_mem_cons] at ih
      have hend : EndsNumber (']' :: rest) := endsNumber_cons rfl
      have hitem := ih.1 _ (endsNumber_flatMap (parts.map Prod.snd) hend)
      have hitems := (reads_itemTokens ih.2 hend).append reads_closeBracket
      have hall := reads_openBracket.cons (hitem.append hitems)
      simpa [tokens, intercalate_cons] using hall
  | emptyObject hspace =>
      intro rest _
      have hopen := reads_openBrace.cons (@reads_spaces ('\x7d' :: rest) _ hspace)
      have hall := hopen.append reads_closeBrace
      simpa [tokens] using hall
  | @object parts hsome _ _ _ ihNames ihValues =>
      intro rest _
      obtain ⟨p, parts, rfl⟩ := List.exists_cons_of_ne_nil hsome
      rw [List.forall_mem_cons] at ihNames ihValues
      have hend : EndsNumber ('\x7d' :: rest) := endsNumber_cons rfl
      have hmember := reads_member ihNames.1 ihValues.1
        (endsNumber_flatMap (parts.map fun p => p.1.2 ++ ':' :: p.2.2) hend)
      have hmembers := (reads_memberTokens ihNames.2 ihValues.2 hend).append reads_closeBrace
      have hall := reads_openBrace.cons (hmember.append hmembers)
      simpa [tokens, intercalate_cons] using hall

/-- A text that spells a tree is read as its tokens. -/
theorem Spells.read_eq {v : Json} {cs : List Char} (h : Spells v cs) :
    Token.read cs = v.tokens := by
  have hall := h.readsAs [] endsNumber_nil
  rw [List.append_nil] at hall
  exact hall.read_eq

end Json

end TrialView
