import Mathlib.Data.List.Infix

namespace Runs

variable {σ α : Type*}

/-- The state after a list of actions, if every one of them can be taken. -/
def run (step : σ → α → Option σ) : σ → List α → Option σ
  | s, [] => some s
  | s, a :: as => (step s a).bind fun t => run step t as

/-- Every step of the run is taken in a state and with an action that meet the guard. -/
def Guarded (step : σ → α → Option σ) (guard : σ → α → Prop) : σ → List α → Prop
  | _, [] => True
  | s, a :: as => ∀ t, step s a = some t → guard s a ∧ Guarded step guard t as

instance decidableGuarded {step : σ → α → Option σ} {guard : σ → α → Prop}
    [∀ s a, Decidable (guard s a)] : ∀ s as, Decidable (Guarded step guard s as)
  | _, [] => .isTrue trivial
  | s, a :: as =>
    match h : step s a with
    | none => .isTrue fun t ht => by rw [h] at ht; cases ht
    | some t =>
      have : Decidable (Guarded step guard t as) := decidableGuarded t as
      decidable_of_iff (guard s a ∧ Guarded step guard t as)
        ⟨fun hg u hu => by rw [h] at hu; cases hu; exact hg, fun hg => hg t h⟩

variable {step : σ → α → Option σ} {guard : σ → α → Prop} {s t u : σ} {a : α} {as bs : List α}

theorem run_cons (h : step s a = some t) : run step s (a :: as) = run step t as := by
  simp [run, h]

/-- A run that ends in a state begins with a step that can be taken. -/
theorem run_cons_some (h : run step s (a :: as) = some u) :
    ∃ t, step s a = some t ∧ run step t as = some u := by
  cases hs : step s a with
  | none => simp [run, hs] at h
  | some t => exact ⟨t, rfl, by simpa [run, hs] using h⟩

/-- A run can be extended by a step from where it ends. -/
theorem run_snoc (h : run step s as = some t) (ha : step t a = some u) :
    run step s (as ++ [a]) = some u := by
  induction as generalizing s with
  | nil =>
    cases h
    rw [List.nil_append, run_cons ha, run]
  | cons b as ih =>
    obtain ⟨v, hv, ht⟩ := run_cons_some h
    rw [List.cons_append, run_cons hv]
    exact ih ht

/-- Guards that agree on every step from a state that keeps an invariant guard the same runs. -/
theorem guarded_congr {I : σ → Prop} {guard' : σ → α → Prop}
    (hinv : ∀ s a t, I s → step s a = some t → I t)
    (h : ∀ s a t, I s → step s a = some t → (guard s a ↔ guard' s a)) (hi : I s) :
    Guarded step guard s as ↔ Guarded step guard' s as := by
  induction as generalizing s with
  | nil => exact Iff.rfl
  | cons a as ih =>
    refine forall_congr' fun t => forall_congr' fun ht => ?_
    rw [h s a t hi ht, ih (hinv s a t hi ht)]

/-- What a guarded step preserves, a guarded run preserves. -/
theorem Guarded.invariant {I : σ → Prop} (hg : Guarded step guard s as)
    (hstep : ∀ s a t, I s → guard s a → step s a = some t → I t)
    (hs : I s) (hr : run step s as = some u) : I u := by
  induction as generalizing s with
  | nil => cases hr; exact hs
  | cons a as ih =>
    obtain ⟨t, ht, hu⟩ := run_cons_some hr
    exact ih (hg t ht).2 (hstep s a t hs (hg t ht).1 ht) hu

theorem guarded_true : Guarded step (fun _ _ => True) s as := by
  induction as generalizing s with
  | nil => trivial
  | cons a as ih => exact fun _ _ => ⟨trivial, ih⟩

/-- What a step preserves, a run preserves. -/
theorem invariant {I : σ → Prop}
    (hstep : ∀ s a t, I s → step s a = some t → I t)
    (hs : I s) (hr : run step s as = some u) : I u :=
  guarded_true.invariant (fun s a t h _ => hstep s a t h) hs hr

theorem Guarded.shorter (hg : Guarded step guard s bs) (hp : as <+: bs) :
    Guarded step guard s as := by
  induction as generalizing s bs with
  | nil => trivial
  | cons a as ih =>
    obtain ⟨cs, rfl⟩ := hp
    exact fun t ht => ⟨(hg t ht).1, ih (hg t ht).2 (List.prefix_append as cs)⟩

/-- Every state a run passes through satisfies the property. -/
def Throughout (step : σ → α → Option σ) (P : σ → Prop) (s : σ) (as : List α) : Prop :=
  ∀ bs t, bs <+: as → run step s bs = some t → P t

theorem throughout_nil {P : σ → Prop} : Throughout step P s [] ↔ P s := by
  constructor
  · intro h
    exact h [] s List.prefix_rfl rfl
  · rintro hs bs t hb ht
    obtain rfl := List.prefix_nil.mp hb
    cases ht
    exact hs

theorem throughout_cons {P : σ → Prop} : Throughout step P s (a :: as) ↔
    P s ∧ ∀ t, step s a = some t → Throughout step P t as := by
  constructor
  · intro h
    refine ⟨h [] s List.nil_prefix rfl, fun t ht bs u hb hu => ?_⟩
    exact h (a :: bs) u ((List.prefix_cons_inj a).mpr hb) (by rw [run_cons ht, hu])
  · rintro ⟨hs, h⟩ bs u hb hu
    cases bs with
    | nil => cases hu; exact hs
    | cons b bs =>
      obtain ⟨rfl, hrest⟩ := List.cons_prefix_cons.mp hb
      obtain ⟨t, ht, hu⟩ := run_cons_some hu
      exact h t ht bs u hrest hu

/-- When the guard says exactly which steps keep the property, the guarded runs are
exactly the runs that have the property throughout. `I` holds of every state anyway. -/
theorem throughout_iff_guarded {I P : σ → Prop}
    (hinv : ∀ s a t, I s → step s a = some t → I t)
    (hstep : ∀ s a t, I s → P s → step s a = some t → (P t ↔ guard s a))
    (hi : I s) (hp : P s) : Throughout step P s as ↔ Guarded step guard s as := by
  constructor
  · intro h
    induction as generalizing s with
    | nil => trivial
    | cons a as ih =>
      intro t ht
      have hpt : P t := h [a] t ⟨as, rfl⟩ (run_cons ht)
      refine ⟨(hstep s a t hi hp ht).mp hpt, ih (hinv s a t hi ht) hpt ?_⟩
      intro bs u hb hu
      exact h (a :: bs) u ((List.prefix_cons_inj a).mpr hb) (by rw [run_cons ht, hu])
  · intro hg bs t hb ht
    exact ((hg.shorter hb).invariant (I := fun s => I s ∧ P s)
      (fun s a t h hga hst => ⟨hinv s a t h.1 hst, (hstep s a t h.1 h.2 hst).mpr hga⟩)
      ⟨hi, hp⟩ ht).2

/-- Every action of the list meets the property where the actions before it lead. The last one
need not lead anywhere. -/
def Always (step : σ → α → Option σ) (P : σ → α → Prop) : σ → List α → Prop
  | _, [] => True
  | s, a :: as => P s a ∧ ∀ t, step s a = some t → Always step P t as

instance decidableAlways {P : σ → α → Prop} [∀ s a, Decidable (P s a)] :
    ∀ s as, Decidable (Always step P s as)
  | _, [] => .isTrue trivial
  | s, a :: as =>
    match h : step s a with
    | none => decidable_of_iff (P s a)
        ⟨fun hp => ⟨hp, fun t ht => by rw [h] at ht; cases ht⟩, fun hp => hp.1⟩
    | some t =>
      have : Decidable (Always step P t as) := decidableAlways t as
      decidable_of_iff (P s a ∧ Always step P t as)
        ⟨fun hp => ⟨hp.1, fun u hu => by rw [h] at hu; cases hu; exact hp.2⟩,
          fun hp => ⟨hp.1, hp.2 t h⟩⟩

/-- Properties that agree in every state that keeps an invariant, which they keep, hold of the
same runs. -/
theorem always_congr {I : σ → Prop} {P Q : σ → α → Prop} {R : α → Prop}
    (hstep : ∀ s a t, I s → P s a → step s a = some t → I t)
    (hiff : ∀ s a, R a → I s → (P s a ↔ Q s a)) (hok : ∀ a ∈ as, R a) (hi : I s) :
    Always step P s as ↔ Always step Q s as := by
  induction as generalizing s with
  | nil => exact Iff.rfl
  | cons a as ih =>
    have ha := hiff s a (hok a List.mem_cons_self) hi
    have hrest (hp : P s a) (t : σ) (ht : step s a = some t) :=
      ih (fun a' h => hok a' (List.mem_cons_of_mem a h)) (hstep s a t hi hp ht)
    constructor
    · rintro ⟨hp, h⟩
      exact ⟨ha.mp hp, fun t ht => (hrest hp t ht).mp (h t ht)⟩
    · rintro ⟨hq, h⟩
      exact ⟨ha.mpr hq, fun t ht => (hrest (ha.mpr hq) t ht).mpr (h t ht)⟩

/-- An invariant that the property keeps holds wherever such a run leads. -/
theorem Always.invariant {I : σ → Prop} {P : σ → α → Prop} (h : Always step P s as)
    (hstep : ∀ s a t, I s → P s a → step s a = some t → I t) (hi : I s)
    (hr : run step s as = some t) : I t := by
  induction as generalizing s with
  | nil => cases hr; exact hi
  | cons a as ih =>
    obtain ⟨u, hu, ht⟩ := run_cons_some hr
    exact ih (h.2 u hu) (hstep s a u hi h.1 hu) ht

end Runs
