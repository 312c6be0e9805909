import Mathlib.Data.Fin.Tuple.Basic

/-- The search loop `for (i = 0; i < n; i++) if (p(i)) return i; return -1;`. -/
def firstIndex {n : Nat} (p : Fin n → Bool) : Int :=
  match Fin.find? p with
  | some i => i.val
  | none => -1

namespace FirstIndex

variable {n : Nat} {p q : Fin n → Bool} {i : Fin n}

/-- The search ends at the first index that passes, or at -1 when none does. -/
theorem cases_on (p : Fin n → Bool) :
    (∃ i, firstIndex p = i.val ∧ p i = true ∧ ∀ j < i, p j = false) ∨
      (firstIndex p = -1 ∧ ∀ i, p i = false) := by
  unfold firstIndex
  cases h : Fin.find? p with
  | none => exact .inr ⟨rfl, Fin.find?_eq_none_iff.mp h⟩
  | some i =>
    obtain ⟨hi, hlt⟩ := Fin.find?_eq_some_iff.mp h
    exact .inl ⟨i, rfl, hi, hlt⟩

theorem nonneg_iff : 0 ≤ firstIndex p ↔ ∃ i, p i = true := by
  rcases cases_on p with ⟨i, he, hi, _⟩ | ⟨he, hn⟩
  · rw [he]
    exact ⟨fun _ => ⟨i, hi⟩, fun _ => by omega⟩
  · rw [he]
    constructor
    · intro h
      omega
    · rintro ⟨i, hi⟩
      rw [hn i] at hi
      cases hi

/-- The index found passes the test. -/
theorem passes (h : firstIndex p = i.val) : p i = true := by
  rcases cases_on p with ⟨j, he, hj, _⟩ | ⟨he, _⟩
  · rwa [Fin.ext (show i.val = j.val by omega)]
  · omega

theorem eq_iff : firstIndex p = i.val ↔ p i = true ∧ ∀ j < i, p j = false := by
  rcases cases_on p with ⟨k, he, hk, hlt⟩ | ⟨he, hn⟩
  · constructor
    · intro h
      rw [Fin.ext (show i.val = k.val by omega)]
      exact ⟨hk, hlt⟩
    · rintro ⟨hi, hmin⟩
      rcases Nat.lt_trichotomy i.val k.val with h | h | h
      · rw [hlt i h] at hi; cases hi
      · rw [he, h]
      · rw [hmin k h] at hk; cases hk
  · rw [he]
    constructor
    · intro h
      omega
    · rintro ⟨hi, -⟩
      rw [hn i] at hi
      cases hi

/-- When only one index passes, the search finds it. -/
theorem eq_of_unique (hi : p i = true) (hu : ∀ j, p j = true → j = i) :
    firstIndex p = i.val := by
  rw [eq_iff]
  refine ⟨hi, fun j hj => ?_⟩
  cases h : p j with
  | false => rfl
  | true => exact absurd (hu j h) (Fin.ne_of_lt hj)

theorem congr (h : ∀ i, p i = q i) : firstIndex p = firstIndex q := by rw [funext h]

end FirstIndex
