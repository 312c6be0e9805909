import Mathlib.Algebra.Order.Ring.Nat
import GameNetwork.Lib.Runs

namespace Runs

variable {σ α τ β : Type*} {step : σ → α → Option σ} {guard : σ → α → Prop} {s t u : σ} {a : α}
  {as bs : List α}

/-- A run goes through the state a part of it leads to. -/
theorem run_append_some (h : run step s (as ++ bs) = some u) :
    ∃ t, run step s as = some t ∧ run step t bs = some u := by
  induction as generalizing s with
  | nil => exact ⟨s, rfl, h⟩
  | cons a as ih =>
    obtain ⟨v, hv, hu⟩ := run_cons_some h
    obtain ⟨t, ht, hb⟩ := ih hu
    exact ⟨t, by rw [run_cons hv, ht], hb⟩

theorem run_append (h : run step s as = some t) : run step s (as ++ bs) = run step t bs := by
  induction as generalizing s with
  | nil => cases h; rfl
  | cons a as ih =>
    obtain ⟨v, hv, ht⟩ := run_cons_some h
    rw [List.cons_append, run_cons hv, ih ht]

theorem Throughout.snoc {P : σ → Prop} (h : Throughout step P s as)
    (hr : run step s (as ++ [a]) = some u) (hu : P u) : Throughout step P s (as ++ [a]) := by
  intro bs t hb ht
  rcases List.prefix_concat_iff.mp hb with rfl | hb
  · rw [hr] at ht
    cases ht
    exact hu
  · exact h bs t hb ht

/-- A property that a run ends with and did not begin with has come with one of its steps, and
held ever since. -/
theorem last_entry {P : σ → Prop} (hr : run step s as = some u) (hs : ¬ P s) (hu : P u) :
    ∃ bs a cs t v, as = bs ++ a :: cs ∧ run step s bs = some t ∧ ¬ P t ∧ step t a = some v ∧
      run step v cs = some u ∧ Throughout step P v cs := by
  induction as using List.reverseRecOn generalizing u with
  | nil =>
    cases hr
    exact absurd hu hs
  | append_singleton as a ih =>
    obtain ⟨t, ht, ha⟩ := run_append_some hr
    obtain ⟨v, hv, hvu⟩ := run_cons_some ha
    cases hvu
    by_cases hp : P t
    · obtain ⟨bs, b, cs, t', v', rfl, hbs, hnot, hb, hcs, hthrough⟩ := ih ht hp
      have hcs' : run step v' (cs ++ [a]) = some u := by
        rw [run_append hcs, run_cons hv]
        rfl
      exact ⟨bs, b, cs ++ [a], t', v', by simp, hbs, hnot, hb, hcs', hthrough.snoc hcs' hu⟩
    · exact ⟨as, a, [], t, u, rfl, ht, hp, hv, rfl, throughout_nil.mpr hu⟩

/-- The property has held since a step of the run that was such an event. The event may speak of
the run that came before. -/
def Since (step : σ → α → Option σ) (P : σ → Prop) (event : List α → σ → α → Prop) (s : σ)
    (as : List α) : Prop :=
  ∃ before a after t v, as = before ++ a :: after ∧ run step s before = some t ∧
    event before t a ∧ step t a = some v ∧ Throughout step P v after

/-- When only such events bring a property about, it has held since one of them. -/
theorem since {P : σ → Prop} {event : List α → σ → α → Prop} (hr : run step s as = some u)
    (hs : ¬ P s) (hu : P u)
    (hevent : ∀ before t a v, run step s before = some t → ¬ P t → step t a = some v → P v →
      event before t a) : Since step P event s as := by
  obtain ⟨before, a, after, t, v, rfl, ht, hnot, hv, -, hthrough⟩ := last_entry hr hs hu
  have hpv : P v := hthrough [] v List.nil_prefix rfl
  exact ⟨before, a, after, t, v, rfl, ht, hevent before t a v ht hnot hv hpv, hv, hthrough⟩

/-- One step of the run was such an event. -/
def Happened (step : σ → α → Option σ) (event : σ → α → Prop) (s : σ) (as : List α) : Prop :=
  ∃ before a after t, as = before ++ a :: after ∧ run step s before = some t ∧ event t a

theorem Since.happened {P : σ → Prop} {event : σ → α → Prop}
    (h : Since step P (fun _ => event) s as) : Happened step event s as := by
  obtain ⟨before, a, after, t, v, has, ht, hevent, -⟩ := h
  exact ⟨before, a, after, t, has, ht, hevent⟩

/-- What the steps of a run mean, in order. -/
def trace (step : σ → α → Option σ) (meaning : σ → α → β) : σ → List α → List β
  | _, [] => []
  | s, a :: as =>
    match step s a with
    | some t => meaning s a :: trace step meaning t as
    | none => []

theorem trace_cons (meaning : σ → α → β) (h : step s a = some t) :
    trace step meaning s (a :: as) = meaning s a :: trace step meaning t as := by
  rw [trace, h]

/-- Steps that count for one at most add up to the length of the run at most. -/
theorem trace_sum_le_length {meaning : σ → α → Nat} (hone : ∀ s a, meaning s a ≤ 1) (s : σ)
    (as : List α) : (trace step meaning s as).sum ≤ as.length := by
  induction as generalizing s with
  | nil => exact Nat.le_refl 0
  | cons a as ih =>
    rw [trace]
    split
    · rename_i t _
      have ha := hone s a
      have hrest := ih t
      rw [List.sum_cons, List.length_cons]
      omega
    · exact Nat.zero_le _

/-- What is spent over a run is covered by what comes in, when the stock of the state covers it in
every step. -/
theorem trace_sum_le {I : σ → Prop} {spent gained : σ → α → Nat} {F : σ → Nat}
    (hinv : ∀ s a t, I s → step s a = some t → I t)
    (hstep : ∀ s a t, I s → step s a = some t → spent s a + F t ≤ gained s a + F s)
    (hi : I s) (hr : run step s as = some u) :
    (trace step spent s as).sum + F u ≤ (trace step gained s as).sum + F s := by
  induction as generalizing s with
  | nil => cases hr; exact Nat.le_refl _
  | cons a as ih =>
    obtain ⟨t, ht, hu⟩ := run_cons_some hr
    have hone := hstep s a t hi ht
    have hrest := ih (hinv s a t hi ht) hu
    simp only [trace_cons _ ht, List.sum_cons]
    omega

/-- Where no step loses anything, the books balance. -/
theorem trace_sum_eq {I : σ → Prop} {spent gained : σ → α → Nat} {F : σ → Nat}
    (hinv : ∀ s a t, I s → step s a = some t → I t)
    (hstep : ∀ s a t, I s → step s a = some t → spent s a + F t = gained s a + F s)
    (hi : I s) (hr : run step s as = some u) :
    (trace step spent s as).sum + F u = (trace step gained s as).sum + F s := by
  induction as generalizing s with
  | nil => cases hr; rfl
  | cons a as ih =>
    obtain ⟨t, ht, hu⟩ := run_cons_some hr
    have hone := hstep s a t hi ht
    have hrest := ih (hinv s a t hi ht) hu
    simp only [trace_cons _ ht, List.sum_cons]
    omega

/-- What the steps of a run take from a balance, the balance has lost in the end. -/
theorem trace_sum_debit {I : σ → Prop} {spent : σ → α → Nat} {F : σ → Int}
    (hinv : ∀ s a t, I s → step s a = some t → I t)
    (hstep : ∀ s a t, I s → step s a = some t → F t + spent s a = F s)
    (hi : I s) (hr : run step s as = some u) : F u + (trace step spent s as).sum = F s := by
  induction as generalizing s with
  | nil => cases hr; exact Int.add_zero _
  | cons a as ih =>
    obtain ⟨t, ht, hu⟩ := run_cons_some hr
    have hone := hstep s a t hi ht
    have hrest := ih (hinv s a t hi ht) hu
    rw [trace_cons _ ht, List.sum_cons]
    omega

/-- When every guarded step does in the abstract what it means, a guarded run does in the
abstract what its steps mean. -/
theorem Guarded.refines {I : σ → Prop} {abs : σ → τ} {apply : τ → β → τ} {meaning : σ → α → β}
    (hg : Guarded step guard s as)
    (hinv : ∀ s a t, I s → guard s a → step s a = some t → I t)
    (hstep : ∀ s a t, I s → guard s a → step s a = some t → abs t = apply (abs s) (meaning s a))
    (hi : I s) (hr : run step s as = some u) :
    abs u = (trace step meaning s as).foldl apply (abs s) := by
  induction as generalizing s with
  | nil => cases hr; rfl
  | cons a as ih =>
    obtain ⟨t, ht, hu⟩ := run_cons_some hr
    obtain ⟨hga, hrest⟩ := hg t ht
    rw [trace_cons meaning ht, List.foldl_cons, ← hstep s a t hi hga ht]
    exact ih hrest (hinv s a t hi hga ht) hu

end Runs
