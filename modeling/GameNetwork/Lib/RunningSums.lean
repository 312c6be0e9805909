import Mathlib.Data.Nat.ModEq
import Mathlib.Tactic.Linarith
import Mathlib.Tactic.Ring

namespace RunningSums

variable {W a b n v w m : Nat} {s t : Nat × Nat}

/-- The sum of the words so far, and the sum of these sums. -/
def add (s : Nat × Nat) (w : Nat) : Nat × Nat := (s.1 + w, s.2 + (s.1 + w))

def total (s : Nat × Nat) (ws : List Nat) : Nat × Nat := ws.foldl add s

def reduce (m : Nat) (s : Nat × Nat) : Nat × Nat := (s.1 % m, s.2 % m)

@[simp] theorem reduce_reduce (m : Nat) (s : Nat × Nat) : reduce m (reduce m s) = reduce m s := by
  simp [reduce]

theorem reduce_add (m : Nat) (s : Nat × Nat) (w : Nat) :
    reduce m (add (reduce m s) w) = reduce m (add s w) := by
  have h : (s.2 + (s.1 % m + w)) % m = (s.2 + (s.1 + w)) % m := by
    rw [Nat.add_left_comm, Nat.mod_add_mod, Nat.add_left_comm]
  simp [reduce, add, h]

/-- A reduction before the words makes no difference to one after them. -/
theorem reduce_total (m : Nat) (s : Nat × Nat) (ws : List Nat) :
    reduce m (total (reduce m s) ws) = reduce m (total s ws) := by
  induction ws generalizing s with
  | nil => exact reduce_reduce m s
  | cons w ws ih =>
    change reduce m (total (add (reduce m s) w) ws) = reduce m (total (add s w) ws)
    rw [← ih, reduce_add, ih]

/-- The words weighted by their distance from the end, the last one by 1. -/
def weighted : List Nat → Nat
  | [] => 0
  | w :: ws => (ws.length + 1) * w + weighted ws

/-- Both sums in closed form. -/
theorem total_eq (s : Nat × Nat) (ws : List Nat) :
    total s ws = (s.1 + ws.sum, s.2 + ws.length * s.1 + weighted ws) := by
  induction ws generalizing s with
  | nil => simp [total, weighted]
  | cons w ws ih =>
    have hcons : total s (w :: ws) = total (add s w) ws := rfl
    rw [hcons, ih, List.sum_cons, List.length_cons, weighted]
    apply Prod.ext
    · simp only [add]
      ring
    · simp only [add]
      ring

theorem reduce_eq_iff : reduce m s = reduce m t ↔ s.1 ≡ t.1 [MOD m] ∧ s.2 ≡ t.2 [MOD m] :=
  Prod.ext_iff

/-- The words that follow never hide a difference in the sums. -/
theorem reduce_total_iff (ws : List Nat) :
    reduce m (total s ws) = reduce m (total t ws) ↔ reduce m s = reduce m t := by
  rw [total_eq, total_eq, reduce_eq_iff, reduce_eq_iff]
  dsimp only
  constructor
  · rintro ⟨h1, h2⟩
    have h : s.1 ≡ t.1 [MOD m] := h1.add_right_cancel' _
    exact ⟨h, (h.mul_left _).add_right_cancel (h2.add_right_cancel' _)⟩
  · rintro ⟨h1, h2⟩
    exact ⟨h1.add_right _, (h2.add (h1.mul_left _)).add_right _⟩

theorem total_append (s : Nat × Nat) (xs ys : List Nat) :
    total s (xs ++ ys) = total (total s xs) ys := List.foldl_append

/-- Replacing a word is noticed unless the two are congruent. -/
theorem replace_iff (xs ys : List Nat) :
    reduce m (total s (xs ++ v :: ys)) = reduce m (total s (xs ++ w :: ys)) ↔
      v ≡ w [MOD m] := by
  rw [total_append, total_append]
  change reduce m (total (add (total s xs) v) ys) = reduce m (total (add (total s xs) w) ys) ↔ _
  rw [reduce_total_iff, reduce_eq_iff]
  simp only [add]
  constructor
  · exact fun h => h.1.add_left_cancel' _
  · exact fun h => ⟨h.add_left _, (h.add_left _).add_left _⟩

/-- So is swapping two neighbours: the second sum counts one of them once more. -/
theorem swap_iff (xs ys : List Nat) :
    reduce m (total s (xs ++ v :: w :: ys)) = reduce m (total s (xs ++ w :: v :: ys)) ↔
      v ≡ w [MOD m] := by
  rw [total_append, total_append]
  change reduce m (total (add (add (total s xs) v) w) ys) =
    reduce m (total (add (add (total s xs) w) v) ys) ↔ _
  rw [reduce_total_iff, reduce_eq_iff]
  simp only [add]
  generalize total s xs = t
  have hfst : t.1 + v + w = t.1 + w + v := by omega
  have hsnd (a b : Nat) : t.2 + (t.1 + a) + (t.1 + a + b) = t.2 + t.1 + (t.1 + a + b) + a := by omega
  rw [hsnd v w, hsnd w v, hfst]
  constructor
  · exact fun h => h.2.add_left_cancel' _
  · exact fun h => ⟨rfl, h.add_left _⟩

theorem weighted_append (xs ys : List Nat) :
    weighted (xs ++ ys) = weighted xs + ys.length * xs.sum + weighted ys := by
  induction xs with
  | nil => simp [weighted]
  | cons x xs ih =>
    rw [List.cons_append, weighted, ih, weighted, List.length_append, List.sum_cons]
    ring

/-- Exchanging two words at a distance is noticed unless the distance takes their difference
to a multiple of the modulus. -/
theorem exchange_iff (xs mid ys : List Nat) :
    reduce m (total s (xs ++ v :: (mid ++ w :: ys))) =
        reduce m (total s (xs ++ w :: (mid ++ v :: ys))) ↔
      (mid.length + 1) * v ≡ (mid.length + 1) * w [MOD m] := by
  have hsplit (a b : Nat) : total s (xs ++ a :: (mid ++ b :: ys)) =
      total (total (total s xs) (a :: (mid ++ [b]))) ys := by
    rw [← total_append, ← total_append]
    simp
  have hsums (t : Nat × Nat) (a b : Nat) : total t (a :: (mid ++ [b])) =
      (t.1 + mid.sum + (a + b),
        t.2 + (mid.length + 2) * t.1 + weighted mid + mid.sum + (a + b) +
          (mid.length + 1) * a) := by
    rw [total_eq, weighted, weighted_append]
    simp only [weighted, List.sum_append, List.sum_cons, List.sum_nil, List.length_append,
      List.length_cons, List.length_nil]
    apply Prod.ext
    · ring
    · ring
  rw [hsplit v w, hsplit w v, reduce_total_iff, hsums, hsums, reduce_eq_iff, Nat.add_comm w v]
  constructor
  · exact fun h => h.2.add_left_cancel' _
  · exact fun h => ⟨rfl, h.add_left _⟩

/-- The sums of a whole from those of its parts, all from one start. -/
theorem total_combine (a : Nat) (xs ys : List Nat) :
    (total (a, 0) (xs ++ ys)).1 + a = (total (a, 0) xs).1 + (total (a, 0) ys).1 ∧
    (total (a, 0) (xs ++ ys)).2 + ys.length * a =
      (total (a, 0) xs).2 + ys.length * (total (a, 0) xs).1 + (total (a, 0) ys).2 := by
  simp only [total_eq, weighted_append, List.sum_append, List.length_append]
  constructor
  · ring
  · ring

/-- The largest sums that `n` words of at most `W` can make of `a` and `b`. The second is
doubled. -/
structure Within (W a b n : Nat) (s : Nat × Nat) : Prop where
  fst : s.1 ≤ a + n * W
  snd : 2 * s.2 ≤ 2 * b + 2 * (n * a) + n * (n + 1) * W

theorem Within.add (h : Within W a b n s) (hw : w ≤ W) : Within W a b (n + 1) (add s w) where
  fst := by
    have := h.fst
    simp only [RunningSums.add]
    linarith
  snd := by
    have := h.fst
    have := h.snd
    simp only [RunningSums.add]
    linarith

end RunningSums
