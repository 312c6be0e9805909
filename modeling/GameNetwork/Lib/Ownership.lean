import Mathlib.Data.List.Basic
import Mathlib.Logic.Function.Basic

/-- Things that are held, and who answers for them: whoever has one, it is held and no one
else's. -/
structure Ownership {ι η : Type*} (owner : ι → Option η) (held : List η) : Prop where
  live : ∀ i h, owner i = some h → h ∈ held
  apart : ∀ i j h, owner i = some h → owner j = some h → i = j
  nodup : held.Nodup

namespace Ownership

variable {ι η : Type*} [DecidableEq ι] {owner : ι → Option η} {held : List η} {i : ι} {h : η}

/-- Everything that is held is somebody's. -/
def NoneLost (owner : ι → Option η) (held : List η) : Prop := ∀ h ∈ held, ∃ i, owner i = some h

theorem start (ι η : Type*) : Ownership (fun _ : ι => (none : Option η)) [] where
  live _ _ h := by cases h
  apart _ _ _ h := by cases h
  nodup := List.nodup_nil

/-- Something new is somebody's now. -/
theorem acquire (ho : Ownership owner held) (i : ι) (hnew : h ∉ held) :
    Ownership (Function.update owner i (some h)) (h :: held) where
  live j g hj := by
    by_cases hji : j = i
    · subst hji
      rw [Function.update_self] at hj
      cases hj
      exact List.mem_cons_self
    · rw [Function.update_of_ne hji] at hj
      exact List.mem_cons_of_mem h (ho.live j g hj)
  apart j k g hj hk := by
    by_cases hji : j = i
    · by_cases hki : k = i
      · rw [hji, hki]
      · subst hji
        rw [Function.update_self] at hj
        cases hj
        rw [Function.update_of_ne hki] at hk
        exact absurd (ho.live k h hk) hnew
    · rw [Function.update_of_ne hji] at hj
      by_cases hki : k = i
      · subst hki
        rw [Function.update_self] at hk
        cases hk
        exact absurd (ho.live j h hj) hnew
      · rw [Function.update_of_ne hki] at hk
        exact ho.apart j k g hj hk
  nodup := List.nodup_cons.mpr ⟨hnew, ho.nodup⟩

/-- Somebody no longer answers for anything. -/
theorem forget (ho : Ownership owner held) (i : ι) :
    Ownership (Function.update owner i none) held where
  live j g hj := by
    by_cases hji : j = i
    · subst hji
      simp at hj
    · rw [Function.update_of_ne hji] at hj
      exact ho.live j g hj
  apart j k g hj hk := by
    by_cases hji : j = i
    · subst hji
      simp at hj
    · by_cases hki : k = i
      · subst hki
        simp at hk
      · rw [Function.update_of_ne hji] at hj
        rw [Function.update_of_ne hki] at hk
        exact ho.apart j k g hj hk
  nodup := ho.nodup

theorem release [DecidableEq η] (ho : Ownership owner held) (hi : owner i = some h) :
    Ownership (Function.update owner i none) (held.erase h) where
  live j g hj := by
    by_cases hji : j = i
    · subst hji
      simp at hj
    · rw [Function.update_of_ne hji] at hj
      have hne : g ≠ h := by
        rintro rfl
        exact hji (ho.apart j i g hj hi)
      exact (List.mem_erase_of_ne hne).mpr (ho.live j g hj)
  apart := (ho.forget i).apart
  nodup := ho.nodup.erase h

/-- What somebody had before is lost when it gets something new. -/
theorem acquire_lost_iff (ho : Ownership owner held) (hn : NoneLost owner held) (i : ι)
    (hnew : h ∉ held) :
    NoneLost (Function.update owner i (some h)) (h :: held) ↔ owner i = none := by
  constructor
  · intro hkept
    cases hi : owner i with
    | none => rfl
    | some g =>
      have hg := ho.live i g hi
      obtain ⟨j, hj⟩ := hkept g (List.mem_cons_of_mem h hg)
      by_cases hji : j = i
      · subst hji
        rw [Function.update_self] at hj
        cases hj
        exact absurd hg hnew
      · rw [Function.update_of_ne hji] at hj
        exact absurd (ho.apart j i g hj hi) hji
  · intro hi g hg
    rcases List.mem_cons.mp hg with rfl | hg
    · exact ⟨i, Function.update_self ..⟩
    · obtain ⟨j, hj⟩ := hn g hg
      have hji : j ≠ i := by
        rintro rfl
        rw [hi] at hj
        cases hj
      exact ⟨j, by rw [Function.update_of_ne hji, hj]⟩

theorem forget_lost_iff (ho : Ownership owner held) (hn : NoneLost owner held) (i : ι) :
    NoneLost (Function.update owner i none) held ↔ owner i = none := by
  constructor
  · intro hkept
    cases hi : owner i with
    | none => rfl
    | some g =>
      obtain ⟨j, hj⟩ := hkept g (ho.live i g hi)
      by_cases hji : j = i
      · subst hji
        simp at hj
      · rw [Function.update_of_ne hji] at hj
        exact absurd (ho.apart j i g hj hi) hji
  · intro hi
    rw [← hi, Function.update_eq_self]
    exact hn

theorem release_keeps [DecidableEq η] (ho : Ownership owner held) (hn : NoneLost owner held)
    (hi : owner i = some h) :
    NoneLost (Function.update owner i none) (held.erase h) := by
  intro g hg
  obtain ⟨j, hj⟩ := hn g (List.mem_of_mem_erase hg)
  have hji : j ≠ i := by
    rintro rfl
    rw [hi] at hj
    cases hj
    exact ho.nodup.not_mem_erase hg
  exact ⟨j, by rw [Function.update_of_ne hji, hj]⟩

omit [DecidableEq ι] in
/-- When nobody has anything, nothing is held. -/
theorem NoneLost.nothing_held (hn : NoneLost owner held) (h : ∀ i, owner i = none) :
    held = [] := by
  apply List.eq_nil_iff_forall_not_mem.mpr
  intro g hg
  obtain ⟨i, hi⟩ := hn g hg
  rw [h i] at hi
  cases hi

end Ownership
