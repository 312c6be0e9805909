import GameNetwork.Proofs.Fletcher

namespace GameNetwork.Proofs
open RunningSums

variable {p q : List UInt16} {i : Nat}

/-- The two words that the modulus 65535 does not tell apart. -/
def Confused (v w : UInt16) : Prop := v = 0 ∧ w = 0xFFFF ∨ v = 0xFFFF ∧ w = 0

instance (v w : UInt16) : Decidable (Confused v w) := inferInstanceAs (Decidable (_ ∨ _))

/-- Two sequences of one length that differ at one position and nowhere else. -/
structure DifferAt (p q : List UInt16) (i : Nat) : Prop where
  length : p.length = q.length
  inside : i < p.length
  differ : p[i]? ≠ q[i]?
  same : ∀ j, j ≠ i → p[j]? = q[j]?

theorem modEq_iff (v w : UInt16) :
    v.toNat ≡ w.toNat [MOD 65535] ↔ v = w ∨ Confused v w := by
  have hv : v.toNat < 65536 := v.toNat_lt
  have hw : w.toNat < 65536 := w.toNat_lt
  have h0 : (0 : UInt16).toNat = 0 := rfl
  have hF : (0xFFFF : UInt16).toNat = 65535 := rfl
  simp only [Confused, ← UInt16.toNat_inj, h0, hF, Nat.ModEq]
  omega

theorem joined_toNat {sums : UInt32 × UInt32} (h1 : sums.1.toNat < 65536)
    (h2 : sums.2.toNat < 65536) :
    ((sums.2 <<< 16) ||| sums.1).toNat = sums.2.toNat * 65536 + sums.1.toNat := by
  have hs : (sums.2 <<< 16).toNat = sums.2.toNat <<< 16 := by
    have h16 : (16 : UInt32).toNat % 32 = 16 := rfl
    rw [UInt32.toNat_shiftLeft, h16, Nat.mod_eq_of_lt]
    rw [Nat.shiftLeft_eq]
    omega
  rw [UInt32.toNat_or, hs, ← Nat.shiftLeft_add_eq_or_of_lt h1, Nat.shiftLeft_eq]

/-- The checksum as one number. -/
theorem improved_toNat (p_data : List UInt16) :
    (fletcher32Improved p_data).toNat =
      (reduce 65535 (total (0, 0) (p_data.map UInt16.toNat))).2 * 65536 +
        (reduce 65535 (total (0, 0) (p_data.map UInt16.toNat))).1 := by
  obtain ⟨-, hv⟩ := improved_values p_data
  have h1 := congrArg Prod.fst hv
  have h2 := congrArg Prod.snd hv
  simp only [values, reduce] at h1 h2
  have hlt1 := Nat.mod_lt (total (0, 0) (p_data.map UInt16.toNat)).1 (y := 65535) (by decide)
  have hlt2 := Nat.mod_lt (total (0, 0) (p_data.map UInt16.toNat)).2 (y := 65535) (by decide)
  rw [fletcher32Improved, joined_toNat (by omega) (by omega), h1, h2]
  rfl

/-- Checksums are equal when both sums are. -/
theorem improved_eq_iff : fletcher32Improved p = fletcher32Improved q ↔
    reduce 65535 (total (0, 0) (p.map UInt16.toNat)) =
      reduce 65535 (total (0, 0) (q.map UInt16.toNat)) := by
  rw [← UInt32.toNat_inj, improved_toNat, improved_toNat, reduce_eq_iff]
  simp only [reduce, Nat.ModEq]
  omega

theorem improved_replace_iff (xs ys : List UInt16) (v w : UInt16) :
    fletcher32Improved (xs ++ v :: ys) = fletcher32Improved (xs ++ w :: ys) ↔
      v = w ∨ Confused v w := by
  rw [improved_eq_iff]
  simp only [List.map_append, List.map_cons]
  rw [replace_iff, modEq_iff]

theorem improved_swap_iff (xs ys : List UInt16) (v w : UInt16) :
    fletcher32Improved (xs ++ v :: w :: ys) = fletcher32Improved (xs ++ w :: v :: ys) ↔
      v = w ∨ Confused v w := by
  rw [improved_eq_iff]
  simp only [List.map_append, List.map_cons]
  rw [swap_iff, modEq_iff]

/-- What surrounds the one position is shared. -/
theorem DifferAt.split (h : DifferAt p q i) :
    ∃ xs ys v w, v ≠ w ∧ p[i]? = some v ∧ q[i]? = some w ∧ p = xs ++ v :: ys ∧
      q = xs ++ w :: ys := by
  have hp := h.inside
  have hq : i < q.length := h.length ▸ h.inside
  have hpi := List.getElem?_eq_getElem hp
  have hqi := List.getElem?_eq_getElem hq
  have htake : p.take i = q.take i := by
    apply List.ext_getElem?
    intro j
    rw [List.getElem?_take, List.getElem?_take]
    split
    · rename_i hj
      exact h.same j (by omega)
    · rfl
  have hdrop : p.drop (i + 1) = q.drop (i + 1) := by
    apply List.ext_getElem?
    intro j
    rw [List.getElem?_drop, List.getElem?_drop]
    exact h.same _ (by omega)
  have hsplit (l : List UInt16) (hl : i < l.length) : l = l.take i ++ l[i] :: l.drop (i + 1) := by
    rw [← List.drop_eq_getElem_cons hl, List.take_append_drop]
  refine ⟨p.take i, p.drop (i + 1), p[i], q[i], ?_, hpi, hqi, hsplit p hp, ?_⟩
  · intro he
    exact h.differ (by rw [hpi, hqi, he])
  · rw [htake, hdrop]
    exact hsplit q hq

/-- The checksum the protocol id is made by misses a changed word, or two neighbours swapped,
exactly when these are 0 and 65535. -/
theorem close_inputs_told_apart :
    (∀ (p q : List UInt16) (i : Nat) (v w : UInt16), DifferAt p q i → p[i]? = some v →
      q[i]? = some w → (fletcher32Improved p = fletcher32Improved q ↔ Confused v w)) ∧
    ∀ (xs ys : List UInt16) (a b : UInt16),
      fletcher32Improved (xs ++ a :: b :: ys) = fletcher32Improved (xs ++ b :: a :: ys) ↔
        a = b ∨ Confused a b := by
  constructor
  · intro p q i v w h hv hw
    obtain ⟨xs, ys, v', w', hne, hv', hw', rfl, rfl⟩ := h.split
    obtain rfl := Option.some.inj (hv.symm.trans hv')
    obtain rfl := Option.some.inj (hw.symm.trans hw')
    rw [improved_replace_iff]
    simp [hne]
  · exact improved_swap_iff

/-- A zero word that became 65535 goes unnoticed. -/
theorem close_inputs_told_apart_sample :
    fletcher32Improved [7, 0, 9] = fletcher32Improved [7, 0xFFFF, 9] := by
  have h : DifferAt [7, 0, 9] [7, 0xFFFF, 9] 1 := by
    constructor
    · rfl
    · decide
    · decide
    · intro j hj
      match j with
      | 0 => rfl
      | 1 => exact absurd rfl hj
      | 2 => rfl
      | j + 3 => rfl
  exact (close_inputs_told_apart.1 [7, 0, 9] [7, 0xFFFF, 9] 1 0 0xFFFF h rfl rfl).mpr (by decide)

end GameNetwork.Proofs
