import TrialView.Peer
import TrialView.Proofs.Encoding.Tree
import TrialView.Proofs.Schema.Numbers
import Mathlib.Data.List.Forall2

/-!
What the values of a document stand for, apart from how they are read: strings for texts, number
literals without point and exponent for integers, any number for a single-precision one, null or
nothing for what is absent, arrays for lists. Each reader is tied to its relation by `Decides`: it
reads from a value exactly what the value stands for, and nothing from any other.
-/

namespace TrialView

open Json Number

section

variable {β : Type}

/-- A reader reads from each value what the value stands for. -/
def Decides (read : Json → Except Fault β) (R : Json → β → Prop) : Prop :=
  ∀ v, v.Proper → ∀ b, read v = .ok b ↔ R v b

/-- A string stands for its text. -/
inductive IsText : Json → String → Prop
  | text (s : String) : IsText (.text s) s

/-- Null stands for the absence of a value. -/
inductive IsOptional (R : Json → β → Prop) : Json → Option β → Prop
  | null : IsOptional R .null none
  | value {v : Json} {b : β} (h : R v b) : IsOptional R v (some b)

/-- An array stands for the list of what its items stand for. -/
inductive IsList (R : Json → β → Prop) : Json → List β → Prop
  | array {vs : List Json} {bs : List β} (h : List.Forall₂ R vs bs) : IsList R (.array vs) bs

def IsByte (v : Json) (b : UInt8) : Prop := IsInteger v b.toNat

def IsWord32 (v : Json) (n : UInt32) : Prop := IsInteger v n.toNat

def IsWord64 (v : Json) (n : UInt64) : Prop := IsInteger v n.toNat

/-- The environment is minus one, and an actor is its place in the roster. -/
def IsPeer (v : Json) (p : Peer) : Prop := IsInteger v p.toInt

/-- A reader that refuses every value of another kind is tied to a relation by the values of its own
kind. -/
theorem decides_of_kind {γ : Type} (kind : γ → Json) {read : Json → Except Fault β}
    {R : Json → β → Prop} (hother : ∀ v, (∀ c, v ≠ kind c) → ∃ fault, read v = .error fault)
    (hkind : ∀ v b, R v b → ∃ c, v = kind c)
    (h : ∀ c, (kind c).Proper → ∀ b, read (kind c) = .ok b ↔ R (kind c) b) : Decides read R := by
  intro v hv b
  by_cases hown : ∃ c, v = kind c
  · obtain ⟨c, rfl⟩ := hown
    exact h c hv b
  · obtain ⟨fault, hfault⟩ := hother v (not_exists.mp hown)
    rw [hfault]
    refine iff_of_false (by simp) ?_
    intro hb
    exact hown (hkind v b hb)

end

namespace Json

section

/-- A natural number is read from a literal within its limit. -/
theorem decides_readNatural {limit : Nat} (expected : String) (hlimit : limit ≤ wordLimit) :
    Decides (readNatural limit expected) fun v n => IsInteger v n ∧ n < limit := by
  apply decides_of_kind Json.number
  · intro v hv
    have hread : readNatural limit expected v = v.mismatch expected := by
      cases v with
      | number l => exact absurd rfl (hv l)
      | _ => rfl
    rw [hread]
    exact exists_mismatch_eq v expected
  · exact fun v n h => h.1.exists_number
  · intro l hv n
    cases hv with
    | number hl => exact readNatural_number_iff expected hlimit hl

/-- An integer is read if it fits sixty-four bits with its sign. -/
theorem decides_readInteger :
    Decides readInteger fun v z =>
      IsInteger v z ∧ -(wordLimit / 2 : Nat) ≤ z ∧ z < (wordLimit / 2 : Nat) := by
  apply decides_of_kind Json.number
  · intro v hv
    have hread : readInteger v = v.mismatch "i64" := by
      cases v with
      | number l => exact absurd rfl (hv l)
      | _ => rfl
    rw [hread]
    exact exists_mismatch_eq v "i64"
  · exact fun v z h => h.1.exists_number
  · intro l hv z
    cases hv with
    | number hl => exact readInteger_number_iff hl

end

end Json

section

variable {β : Type}

theorem decides_text : Decides Source.text IsText := by
  apply decides_of_kind Json.text
  · intro v hv
    have hread : Source.text v = v.mismatch "a string" := by
      cases v with
      | text t => exact absurd rfl (hv t)
      | _ => rfl
    rw [hread]
    exact exists_mismatch_eq v "a string"
  · rintro _ _ ⟨-⟩
    exact ⟨_, rfl⟩
  · intro t _ s
    have hread : Source.text (Json.text t) = .ok t := rfl
    rw [hread, Except.ok.injEq]
    constructor
    · rintro rfl
      exact .text t
    · intro h
      cases h
      rfl

theorem decides_single : Decides Source.single IsSingle := by
  apply decides_of_kind Json.number
  · intro v hv
    have hread : Source.single v = v.mismatch "f32" := by
      cases v with
      | number l => exact absurd rfl (hv l)
      | _ => rfl
    rw [hread]
    exact exists_mismatch_eq v "f32"
  · exact fun v x h => h.exists_number
  · intro l hv x
    cases hv with
    | number hl => exact readSingle_number_iff hl

/-- Words are read from the natural numbers that fit them. -/
theorem decides_word {size : Nat} (expected : String) {ofNat : Nat → β} {toNat : β → Nat}
    (hsize : size ≤ wordLimit) (hlt : ∀ b, toNat b < size) (hof : ∀ n < size, toNat (ofNat n) = n)
    (hto : ∀ b, ofNat (toNat b) = b) :
    Decides (fun v : Json => do return ofNat (← Source.natural size expected v))
      fun v b => IsInteger v (toNat b) := by
  intro v hv b
  have hread : (do return ofNat (← Source.natural size expected v) : Except Fault β) = .ok b ↔
      ∃ n, readNatural size expected v = .ok n ∧ ofNat n = b := by
    change (readNatural size expected v >>= fun n => pure (ofNat n)) = .ok b ↔ _
    cases readNatural size expected v with
    | error fault => simp
    | ok n => simp [pure, Except.pure]
  rw [hread]
  simp only [decides_readNatural expected hsize v hv]
  constructor
  · rintro ⟨n, ⟨hn, hfits⟩, rfl⟩
    rwa [hof n hfits]
  · intro hb
    exact ⟨toNat b, ⟨hb, hlt b⟩, hto b⟩

theorem decides_byte : Decides Source.byte IsByte :=
  decides_word "u8" (by decide) UInt8.toNat_lt (fun _ => UInt8.toNat_ofNat_of_lt) fun _ =>
    UInt8.ofNat_toNat

theorem decides_word32 : Decides Source.word32 IsWord32 :=
  decides_word "u32" (by decide) UInt32.toNat_lt (fun _ => UInt32.toNat_ofNat_of_lt) fun _ =>
    UInt32.ofNat_toNat

theorem decides_word64 : Decides Source.word64 IsWord64 :=
  decides_word "u64" (Nat.le_refl _) UInt64.toNat_lt (fun _ => UInt64.toNat_ofNat_of_lt) fun _ =>
    UInt64.ofNat_toNat

end

namespace Peer

theorem toInt_bounds (p : Peer) : -1 ≤ p.toInt ∧ p.toInt < UInt32.size := by
  cases p with
  | environment => decide
  | actor index =>
      have hindex := index.toNat_lt
      exact ⟨by simp only [toInt]; omega, by simp only [toInt]; exact Int.ofNat_lt.mpr hindex⟩

theorem toInt_of_ofInt? {z : Int} {p : Peer} (h : ofInt? z = some p) : p.toInt = z := by
  unfold ofInt? at h
  split at h
  · next hz =>
      cases h
      exact hz.symm
  split at h
  · next hz =>
      cases h
      have hsize : UInt32.size = 2 ^ 32 := rfl
      simp [toInt]
      omega
  · cases h

theorem decides_read : Decides Peer.read IsPeer := by
  intro v hv p
  have hread : Peer.read v = .ok p ↔ ∃ z, readInteger v = .ok z ∧ ofInt? z = some p := by
    change (readInteger v >>= _) = .ok p ↔ _
    cases readInteger v with
    | error fault => simp
    | ok z =>
        cases hz : ofInt? z <;>
          simp [hz, pure, Except.pure, throw, throwThe, MonadExceptOf.throw]
  rw [hread]
  simp only [decides_readInteger v hv]
  constructor
  · rintro ⟨z, ⟨hz, -⟩, hp⟩
    rwa [IsPeer, toInt_of_ofInt? hp]
  · intro hp
    have hbounds := toInt_bounds p
    have hsize : UInt32.size = 2 ^ 32 := rfl
    have hlimit : wordLimit / 2 = 2 ^ 63 := rfl
    exact ⟨p.toInt, ⟨hp, by omega, by omega⟩, ofInt?_toInt p⟩

end Peer

section

variable {β : Type} {read : Json → Except Fault β} {R : Json → β → Prop}

/-- Nothing that stands for a value stands for its absence. -/
theorem Decides.optional (h : Decides read R) (hnull : ∀ b, ¬ R .null b) :
    Decides (Source.optional read) (IsOptional R) := by
  intro v hv b?
  by_cases habsent : v = .null
  · subst habsent
    have hread : Source.optional read .null = .ok none := rfl
    rw [hread, Except.ok.injEq]
    constructor
    · rintro rfl
      exact .null
    · intro hb
      cases hb with
      | null => rfl
      | value hb => exact absurd hb (hnull _)
  · have hread : Source.optional read v = some <$> read v := by
      cases v with
      | null => exact absurd rfl habsent
      | _ => rfl
    have hvalue : Source.optional read v = .ok b? ↔ ∃ b, read v = .ok b ∧ some b = b? := by
      rw [hread]
      cases read v with
      | error fault => simp
      | ok b => simp
    rw [hvalue]
    simp only [h v hv]
    constructor
    · rintro ⟨b, hb, rfl⟩
      exact .value hb
    · intro hb
      cases hb with
      | null => exact absurd rfl habsent
      | value hb => exact ⟨_, hb, rfl⟩

/-- By induction on the items. -/
theorem Decides.mapM_eq_ok_iff (h : Decides read R) {vs : List Json} (hvs : ∀ v ∈ vs, v.Proper)
    {bs : List β} : vs.mapM read = .ok bs ↔ List.Forall₂ R vs bs := by
  induction vs generalizing bs with
  | nil =>
      rw [List.mapM_nil, List.forall₂_nil_left_iff]
      simp [pure, Except.pure, eq_comm]
  | cons v vs ih =>
      rw [List.forall_mem_cons] at hvs
      have hcons : (v :: vs).mapM read = .ok bs ↔
          ∃ b cs, read v = .ok b ∧ vs.mapM read = .ok cs ∧ bs = b :: cs := by
        rw [List.mapM_cons]
        cases read v with
        | error fault => simp
        | ok b =>
            cases vs.mapM read with
            | error fault => simp
            | ok cs => simp [pure, Except.pure, eq_comm]
      rw [hcons, List.forall₂_cons_left_iff]
      simp only [h v hvs.1, ih hvs.2]

theorem Decides.list (h : Decides read R) : Decides (Source.list read) (IsList R) := by
  apply decides_of_kind Json.array
  · intro v hv
    have hread : Source.list read v =
        v.mismatch "a sequence" >>= fun vs : List Json => vs.mapM read := by
      cases v with
      | array vs => exact absurd rfl (hv vs)
      | _ => rfl
    obtain ⟨fault, hfault⟩ := exists_mismatch_eq (α := List Json) v "a sequence"
    rw [hread, hfault, error_bind]
    exact ⟨fault, rfl⟩
  · rintro _ _ ⟨-⟩
    exact ⟨_, rfl⟩
  · intro vs hv bs
    have hread : Source.list read (.array vs) = vs.mapM read := rfl
    cases hv with
    | array hvs =>
        rw [hread, h.mapM_eq_ok_iff hvs]
        constructor
        · exact .array
        · intro hbs
          cases hbs with
          | array hbs => exact hbs

end

end TrialView
