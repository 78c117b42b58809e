import TrialView.Proofs.Encoding.Reread

/-!
Compact JSON stands on one line. Line feeds are escaped in strings, numbers have none, and the
compact style breaks no lines. A record begins and ends with a brace, so its line is not blank and
has no carriage return at its end.
-/

namespace TrialView.Json

theorem newline_not_mem_escapeChar (c : Char) : '\n' ∉ escapeChar c := by
  have hdigit : ∀ n < 128, Nat.digitChar n ≠ '\n' := by decide
  unfold escapeChar
  split
  · decide
  split
  · decide
  split
  · decide
  split
  · decide
  split
  · decide
  split
  · decide
  split
  · decide
  split
  · next hcontrol =>
      have hfirst := hdigit (c.toNat / 16) (by omega)
      have hsecond := hdigit (c.toNat % 16) (by omega)
      simp [unitDigits, hfirst.symm, hsecond.symm]
  · next hnewline _ _ _ => simpa using Ne.symm hnewline

theorem newline_not_mem_writeText (s : String) : '\n' ∉ writeText s := by
  simp [writeText, newline_not_mem_escapeChar]

theorem newline_not_mem_lexeme {l : List Char} (h : IsLexeme l) : '\n' ∉ l := by
  intro hmem
  exact absurd (h.plain '\n' hmem) (by decide)

section

variable (depth : Nat)

theorem newline_not_mem_writeItems {vs : List Json}
    (h : ∀ v ∈ vs, '\n' ∉ v.write .compact depth) : '\n' ∉ writeItems .compact depth vs := by
  induction vs with
  | nil => simp [writeItems]
  | cons v vs ih =>
      rw [List.forall_mem_cons] at h
      simp [writeItems, Style.lineBreak, h.1, ih h.2]

theorem newline_not_mem_writeMembers {ms : List (Json × Json)}
    (hnames : ∀ m ∈ ms, '\n' ∉ m.1.write .compact depth)
    (hvalues : ∀ m ∈ ms, '\n' ∉ m.2.write .compact depth) :
    '\n' ∉ writeMembers .compact depth ms := by
  induction ms with
  | nil => simp [writeMembers]
  | cons m ms ih =>
      rw [List.forall_mem_cons] at hnames hvalues
      simp [writeMembers, Style.lineBreak, Style.colon, hnames.1, hvalues.1,
        ih hnames.2 hvalues.2]

end

/-- By induction on how the tree is built, at every depth. -/
theorem Written.newline_not_mem {v : Json} (h : Written v) (depth : Nat) :
    '\n' ∉ v.write .compact depth := by
  induction h generalizing depth with
  | null => simp [write]
  | bool value => cases value <;> simp [write]
  | number hlexeme => simpa only [write] using newline_not_mem_lexeme hlexeme
  | text s => simpa only [write] using newline_not_mem_writeText s
  | @array vs _ ih =>
      cases vs with
      | nil => simp [write]
      | cons v vs =>
          have hitem := ih v List.mem_cons_self (depth + 1)
          have hitems := newline_not_mem_writeItems (depth + 1)
            fun w hw => ih w (List.mem_cons_of_mem _ hw) (depth + 1)
          simp [write, Style.lineBreak, hitem, hitems]
  | @object ms hnames _ ihValues =>
      have hname : ∀ m ∈ ms, '\n' ∉ m.1.write .compact (depth + 1) := by
        intro m hm
        obtain ⟨s, hs⟩ := hnames m hm
        rw [hs]
        exact newline_not_mem_writeText s
      cases ms with
      | nil => simp [write]
      | cons m ms =>
          obtain ⟨k, v⟩ := m
          rw [List.forall_mem_cons] at hname
          have hvalue := ihValues _ List.mem_cons_self (depth + 1)
          have hmembers := newline_not_mem_writeMembers (depth + 1) hname.2
            (fun m hm => ihValues m (List.mem_cons_of_mem _ hm) (depth + 1))
          simp [write, Style.lineBreak, Style.colon, hname.1, hvalue, hmembers]

/-- A record is written between braces. -/
theorem exists_render_record (style : Style) (ms : List (String × Json)) :
    ∃ inner, (Json.record ms).render style = '\x7b' :: (inner ++ ['\x7d']) := by
  cases ms with
  | nil => exact ⟨[], rfl⟩
  | cons m ms =>
      rw [Json.record, List.map_cons, render, write]
      exact ⟨_, rfl⟩

end TrialView.Json

namespace TrialView.Sample

/-- A sample in compact form is a line from one brace to another. -/
theorem render_compact (s : Sample) :
    '\n' ∉ s.render .compact ∧ ∃ inner, s.render .compact = '\x7b' :: (inner ++ ['\x7d']) := by
  constructor
  · exact s.written_toJson.newline_not_mem 0
  · rw [render, toJson_eq]
    exact Json.exists_render_record .compact _

end TrialView.Sample
