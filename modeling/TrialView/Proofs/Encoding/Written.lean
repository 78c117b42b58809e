import TrialView.Json.Writer
import TrialView.Proofs.Encoding.Tree

/-!
Written JSON spells the tree that was written, in both styles and at every depth: line breaks and
margins are white space, and a string is spelled with the escapes that it needs. A written tree is
one whose numbers are lexemes and that has no leaf which is not JSON. So a written record is decoded
as it is read from its tree.
-/

namespace TrialView.Json

/-- A tree that is written as JSON. -/
inductive Written : Json → Prop
  | null : Written .null
  | bool (value : Bool) : Written (.bool value)
  | number {l : List Char} (h : IsLexeme l) : Written (.number l)
  | text (s : String) : Written (.text s)
  | array {vs : List Json} (h : ∀ v ∈ vs, Written v) : Written (.array vs)
  | object {ms : List (Json × Json)} (hnames : ∀ m ∈ ms, ∃ s, m.1 = .text s)
      (hvalues : ∀ m ∈ ms, Written m.2) : Written (.object ms)

theorem written_array_iff {vs : List Json} : Written (.array vs) ↔ ∀ v ∈ vs, Written v := by
  constructor
  · rintro ⟨⟩
    assumption
  · exact .array

theorem written_object_iff {ms : List (Json × Json)} :
    Written (.object ms) ↔ (∀ m ∈ ms, ∃ s, m.1 = .text s) ∧ ∀ m ∈ ms, Written m.2 := by
  constructor
  · rintro ⟨⟩
    exact ⟨‹_›, ‹_›⟩
  · exact fun h => .object h.1 h.2

/-! Strings. -/

/-- A character as it is found in a written string: a control character that no letter stands for
is given by its number. -/
def pieceOf (c : Char) : Piece :=
  if c = '\x08' ∨ c = '\x0c' ∨ c = '\n' ∨ c = '\r' ∨ c = '\t' ∨ 0x20 ≤ c.toNat then .char c
  else .unit c.toNat

theorem unitEscape?_unitDigits {n : Nat} (h : n < 0x20) :
    unitEscape? '0' '0' (Nat.digitChar (n / 16)) (Nat.digitChar (n % 16)) = some n := by
  have hall : ∀ n < 0x20,
      unitEscape? '0' '0' (Nat.digitChar (n / 16)) (Nat.digitChar (n % 16)) = some n := by decide
  exact hall n h

theorem spells_escapeChar (c : Char) : (pieceOf c).Spells (escapeChar c) := by
  unfold escapeChar
  split
  · next h => subst h; exact .letter rfl
  split
  · next h => subst h; exact .letter rfl
  split
  · next h => subst h; exact .letter rfl
  split
  · next h => subst h; exact .letter rfl
  split
  · next h => subst h; exact .letter rfl
  split
  · next h => subst h; exact .letter rfl
  split
  · next h => subst h; exact .letter rfl
  split
  · next hquote hslash hb hf hn hr ht hcontrol =>
      have hpiece : pieceOf c = .unit c.toNat := by
        rw [pieceOf, if_neg]
        simp only [hb, hf, hn, hr, ht, false_or]
        omega
      rw [hpiece]
      exact .unit (unitEscape?_unitDigits hcontrol)
  · next hquote hslash hb hf hn hr ht hplain =>
      have hpiece : pieceOf c = .char c := by
        rw [pieceOf, if_pos]
        simp only [hb, hf, hn, hr, ht, false_or]
        omega
      rw [hpiece]
      exact .plain (Nat.not_lt.mp hplain) hquote hslash

/-- A number below those of the surrogates stands for itself, whatever follows. -/
theorem assemble_unit {n : Nat} (h : n < 0x20) (ps : List Piece) :
    Piece.assemble (.unit n :: ps) = (Piece.assemble ps).map (Char.ofNat n :: ·) := by
  have hhigh : Piece.isHigh n = false := by
    simp only [Piece.isHigh, Bool.and_eq_false_iff, decide_eq_false_iff_not]
    omega
  have hlow : Piece.isLow n = false := by
    simp only [Piece.isLow, Bool.and_eq_false_iff, decide_eq_false_iff_not]
    omega
  rcases ps with _ | ⟨p, ps⟩
  · simp [Piece.assemble, hhigh, hlow]
  · cases p with
    | char c => simp [Piece.assemble, hhigh, hlow]
    | unit l => simp [Piece.assemble, hhigh, hlow]

theorem assemble_pieceOf (cs : List Char) : Piece.assemble (cs.map pieceOf) = some cs := by
  induction cs with
  | nil => rfl
  | cons c cs ih =>
      rw [List.map_cons, pieceOf]
      split
      · simp [Piece.assemble, ih]
      · rw [assemble_unit (by omega), ih]
        simp [Char.ofNat_toNat]

theorem spells_writeText (s : String) : Spells (.text s) (writeText s) := by
  have hspelled : ∀ p ∈ s.toList.map fun c => (pieceOf c, escapeChar c), p.1.Spells p.2 := by
    simp only [List.forall_mem_map]
    intro c _
    exact spells_escapeChar c
  have hleaf : ofPieces (s.toList.map pieceOf) = .text s := by
    rw [ofPieces, assemble_pieceOf]
    exact congrArg Json.text (String.ofList_toList)
  have hall := Spells.string hspelled
  rw [List.map_map, List.flatMap_map] at hall
  exact hleaf ▸ hall

/-! Line breaks. -/

section

variable {v : Json} {cs : List Char} (style : Style) (depth : Nat)

theorem isSpace_of_mem_lineBreak {c : Char} (h : c ∈ style.lineBreak depth) : isSpace c = true := by
  cases style with
  | compact => cases h
  | indented =>
      rcases List.mem_cons.mp h with rfl | hmargin
      · rfl
      · rw [List.eq_of_mem_replicate hmargin]
        rfl

theorem Spells.before_all {spaces : List Char} (h : Spells v cs)
    (hspaces : ∀ c ∈ spaces, isSpace c = true) : Spells v (spaces ++ cs) := by
  induction spaces with
  | nil => exact h
  | cons c spaces ih =>
      rw [List.forall_mem_cons] at hspaces
      exact .before hspaces.1 (ih hspaces.2)

theorem Spells.behind_all {spaces : List Char} (h : Spells v cs)
    (hspaces : ∀ c ∈ spaces, isSpace c = true) : Spells v (cs ++ spaces) := by
  induction spaces generalizing cs with
  | nil => rwa [List.append_nil]
  | cons c spaces ih =>
      rw [List.forall_mem_cons] at hspaces
      have hall := ih (h.behind hspaces.1) hspaces.2
      rwa [List.append_assoc] at hall

theorem Spells.lineBreak (h : Spells v cs) : Spells v (style.lineBreak depth ++ cs) :=
  h.before_all fun _ hc => isSpace_of_mem_lineBreak style depth hc

end

/-- Wherever a tree is written, its text spells it. -/
def IsSpelled (v : Json) : Prop :=
  ∀ (style : Style) (depth : Nat), Spells v (v.write style depth)

section

variable {v : Json} (style : Style) (depth : Nat)

/-- The white space before the closing bracket belongs to the last item. -/
theorem spells_writeItems {vs : List Json} {spaces : List Char} (hv : v.IsSpelled)
    (hvs : ∀ w ∈ vs, w.IsSpelled) (hspaces : ∀ c ∈ spaces, isSpace c = true) :
    SpellsItems (v :: vs) (style.lineBreak depth ++ (v.write style depth ++
      (writeItems style depth vs ++ spaces))) := by
  have hitem := (hv style depth).lineBreak style depth
  induction vs generalizing v with
  | nil =>
      rw [writeItems, List.nil_append, ← List.append_assoc]
      exact .one (hitem.behind_all hspaces)
  | cons w vs ih =>
      rw [List.forall_mem_cons] at hvs
      have hrest := ih hvs.1 hvs.2 ((hvs.1 style depth).lineBreak style depth)
      simpa [writeItems] using SpellsItems.more hitem hrest

theorem spells_colon {cs : List Char} (h : Spells v cs) :
    ∃ ds, Spells v ds ∧ style.colon ++ cs = ':' :: ds := by
  cases style with
  | compact => exact ⟨cs, h, rfl⟩
  | indented => exact ⟨' ' :: cs, .before rfl h, rfl⟩

theorem spells_writeMembers (s : String) {ms : List (Json × Json)} {spaces : List Char}
    (hv : v.IsSpelled) (hnames : ∀ m ∈ ms, ∃ s, m.1 = .text s)
    (hvalues : ∀ m ∈ ms, m.2.IsSpelled) (hspaces : ∀ c ∈ spaces, isSpace c = true) :
    SpellsMembers ((.text s, v) :: ms) (style.lineBreak depth ++ (writeText s ++ (style.colon ++
      (v.write style depth ++ (writeMembers style depth ms ++ spaces))))) := by
  have hname := (spells_writeText s).lineBreak style depth
  induction ms generalizing s v with
  | nil =>
      obtain ⟨ds, hvalue, hcolon⟩ := spells_colon style ((hv style depth).behind_all hspaces)
      rw [writeMembers, List.nil_append, hcolon, ← List.append_assoc]
      exact .one rfl hname hvalue
  | cons m ms ih =>
      obtain ⟨k, w⟩ := m
      rw [List.forall_mem_cons] at hnames hvalues
      obtain ⟨⟨t, rfl⟩, hnames⟩ := hnames
      have hrest := ih t hvalues.1 hnames hvalues.2 ((spells_writeText t).lineBreak style depth)
      obtain ⟨ds, hvalue, hcolon⟩ := spells_colon style (hv style depth)
      have hall := SpellsMembers.more rfl hname hvalue hrest
      rw [← hcolon] at hall
      simpa [writeMembers, write] using hall

end

/-- By induction on how the tree is built. -/
theorem Written.isSpelled {v : Json} (h : Written v) : v.IsSpelled := by
  induction h with
  | null => exact fun _ _ => .null
  | bool value => cases value <;> exact fun _ _ => .bool _
  | number h => exact fun _ _ => .number h
  | text s => exact fun _ _ => spells_writeText s
  | @array vs _ ih =>
      intro style depth
      cases vs with
      | nil => exact @Spells.emptyArray [] (by simp)
      | cons v vs =>
          rw [List.forall_mem_cons] at ih
          have hspaces := fun c => @isSpace_of_mem_lineBreak style depth c
          have hall := Spells.of_items (spells_writeItems style (depth + 1) ih.1 ih.2 hspaces)
          simpa [write] using hall
  | @object ms hnames _ ih =>
      intro style depth
      cases ms with
      | nil => exact @Spells.emptyObject [] (by simp)
      | cons m ms =>
          obtain ⟨k, v⟩ := m
          rw [List.forall_mem_cons] at hnames ih
          obtain ⟨⟨s, rfl⟩, hnames⟩ := hnames
          have hspaces := fun c => @isSpace_of_mem_lineBreak style depth c
          have hall := Spells.of_members
            (spells_writeMembers style (depth + 1) s ih.1 hnames ih.2 hspaces)
          simpa [write] using hall

/-- To read a written text is to read the tree. -/
theorem decode_render {α : Type} {v : Json} (h : Written v) (style : Style)
    (read : Json → Except Fault α) : decode read (v.render style) = read v :=
  (h.isSpelled style 0).decode_eq read

end TrialView.Json
