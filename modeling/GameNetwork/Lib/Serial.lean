import Mathlib.Tactic.Ring
import Mathlib.Tactic.Linarith

namespace Serial

/-- Serial-number order on counters modulo `2 * m`: one counter is ahead of another when
the shorter way round from the second to the first goes forwards. -/
def Ahead (m a b : Nat) : Prop :=
  (b < a ∧ a - b < m) ∨ (a < b ∧ m ≤ b - a)

/-- Two numbers less than a full turn apart have the same turn or neighbouring turns. -/
theorem turns_close {M n k : Nat} (hn : n < k + M) (hk : k < n + M) :
    M * (n / M) = M * (k / M) ∨ M * (n / M) = M * (k / M) + M ∨
      M * (k / M) = M * (n / M) + M := by
  have hM : 0 < M := by omega
  have hnm := Nat.div_add_mod n M
  have hkm := Nat.div_add_mod k M
  have hn' := Nat.mod_lt n hM
  have hk' := Nat.mod_lt k hM
  rcases Nat.lt_trichotomy (n / M) (k / M) with h | h | h
  · obtain ⟨c, hc⟩ := Nat.exists_eq_add_of_lt h
    have hmul : M * (k / M) = M * (n / M) + M * c + M := by rw [hc]; ring
    cases c with
    | zero => right; right; simpa using hmul
    | succ c => rw [Nat.mul_succ] at hmul; omega
  · left; rw [h]
  · obtain ⟨c, hc⟩ := Nat.exists_eq_add_of_lt h
    have hmul : M * (n / M) = M * (k / M) + M * c + M := by rw [hc]; ring
    cases c with
    | zero => right; left; simpa using hmul
    | succ c => rw [Nat.mul_succ] at hmul; omega

/-- Inside a window of less than half a turn, the order of the counters is the order of
the numbers they count. -/
theorem ahead_mod_iff {m n k : Nat} (hn : n < k + m) (hk : k < n + m) :
    Ahead m (n % (2 * m)) (k % (2 * m)) ↔ k < n := by
  have hnm := Nat.div_add_mod n (2 * m)
  have hkm := Nat.div_add_mod k (2 * m)
  have hn' := Nat.mod_lt n (show 0 < 2 * m by omega)
  have hk' := Nat.mod_lt k (show 0 < 2 * m by omega)
  unfold Ahead
  rcases turns_close (M := 2 * m) (n := n) (k := k) (by omega) (by omega) with h | h | h <;> omega

end Serial
