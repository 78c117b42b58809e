/-!
Sets of names as lists in rising order without repetition. Names are compared by their code points,
which is also the order of their bytes.
-/

namespace TrialView.Text

def insertName (s : String) : List String → List String
  | [] => [s]
  | t :: ts => if s < t then s :: t :: ts else if s = t then t :: ts else t :: insertName s ts

/-- The names of a list, each once and in order. -/
def namesOf (xs : List String) : List String :=
  xs.foldr insertName []

theorem mem_insertName {s t : String} {ts : List String} :
    t ∈ insertName s ts ↔ t = s ∨ t ∈ ts := by
  induction ts with
  | nil => simp [insertName]
  | cons u us ih =>
      simp only [insertName]
      split
      · simp
      · split
        · simp_all
        · simp only [List.mem_cons, ih]
          constructor <;> intro h <;> rcases h with h | h | h <;> simp [h]

theorem mem_namesOf {s : String} {xs : List String} : s ∈ namesOf xs ↔ s ∈ xs := by
  induction xs with
  | nil => simp [namesOf]
  | cons x xs ih =>
      simp only [namesOf, List.foldr_cons, List.mem_cons, mem_insertName] at ih ⊢
      rw [ih]

end TrialView.Text
