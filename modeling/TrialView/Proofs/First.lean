import Mathlib.Tactic.ByContra

/-!
The first element of a list that has a property. Searches for elements and for results both end at
one, so what they find can be told without saying how they search.
-/

namespace TrialView

/-- The first element of a list that has a property. -/
def IsFirst {α : Type} (p : α → Prop) (xs : List α) (x : α) : Prop :=
  ∃ before after, xs = before ++ x :: after ∧ p x ∧ ∀ y ∈ before, ¬ p y

section

variable {α β : Type} {xs : List α}

theorem IsFirst.holds {p : α → Prop} {x : α} (h : IsFirst p xs x) : p x := by
  obtain ⟨_, _, _, hx, _⟩ := h
  exact hx

theorem find?_eq_some_iff_isFirst {p : α → Prop} [DecidablePred p] {x : α} :
    xs.find? (fun y => p y) = some x ↔ IsFirst p xs x := by
  rw [List.find?_eq_some_iff_append]
  constructor
  · rintro ⟨hx, before, after, rfl, hbefore⟩
    exact ⟨before, after, rfl, by simpa using hx, by simpa using hbefore⟩
  · rintro ⟨before, after, rfl, hx, hbefore⟩
    exact ⟨by simpa using hx, before, after, rfl, by simpa using hbefore⟩

/-- The first result of a search is the result at the first element that has one. -/
theorem findSome?_eq_some_iff_isFirst {p : α → Prop} {f : α → Option β} {b : β}
    (hp : ∀ x, p x ↔ f x ≠ none) :
    xs.findSome? f = some b ↔ ∃ x, IsFirst p xs x ∧ f x = some b := by
  rw [List.findSome?_eq_some_iff]
  constructor
  · rintro ⟨before, x, after, rfl, hx, hbefore⟩
    refine ⟨x, ⟨before, after, rfl, (hp x).mpr (by simp [hx]), ?_⟩, hx⟩
    intro y hy hpy
    exact (hp y).mp hpy (hbefore y hy)
  · rintro ⟨x, ⟨before, after, rfl, _, hbefore⟩, hx⟩
    refine ⟨before, x, after, rfl, hx, ?_⟩
    intro y hy
    by_contra hsome
    exact hbefore y hy ((hp y).mpr hsome)

end

end TrialView
