import GameNetwork.Proofs.Collisions
import Mathlib.Tactic.NormNum.Prime

namespace GameNetwork.Proofs
open RunningSums

variable {sums : UInt32 × UInt32} {s t : Nat × Nat} {m a n : Nat}

theorem foldl_addAdler (p_data : List UInt16) : values (p_data.foldl addAdler (1, 0)) =
    reduce 65521 (total (1, 0) (p_data.map UInt16.toNat)) :=
  foldl_turn (by decide) (by decide) rfl p_data

/-- Two reduced sums in one number. -/
def joined (m : Nat) (s : Nat × Nat) : Nat := s.2 % m * 65536 + s.1 % m

theorem joined_eq_iff (hm : 0 < m) (hle : m ≤ 65536) :
    joined m s = joined m t ↔ reduce m s = reduce m t := by
  have h1 := Nat.mod_lt s.1 hm
  have h2 := Nat.mod_lt t.1 hm
  rw [reduce_eq_iff]
  simp only [joined, Nat.ModEq]
  omega

theorem joined_values (hm : 0 < m) (hle : m ≤ 65536) (h : values sums = reduce m s) :
    ((sums.2 <<< 16) ||| sums.1).toNat = joined m s := by
  have h1 : sums.1.toNat = s.1 % m := congrArg Prod.fst h
  have h2 : sums.2.toNat = s.2 % m := congrArg Prod.snd h
  have hlt1 := Nat.mod_lt s.1 hm
  have hlt2 := Nat.mod_lt s.2 hm
  rw [joined_toNat (by omega) (by omega), h1, h2, joined]

/-- Both checksums as numbers: the modulus and what the first sum starts from make the
difference. -/
theorem adler32_toNat (p_data : List UInt16) :
    (adler32 p_data).toNat = joined 65521 (total (1, 0) (p_data.map UInt16.toNat)) :=
  joined_values (by decide) (by decide) (foldl_addAdler p_data)

theorem fletcher32_toNat (p_data : List UInt16) :
    (fletcher32 p_data).toNat = joined 65535 (total (0, 0) (p_data.map UInt16.toNat)) :=
  joined_values (by decide) (by decide) (foldl_addReduced p_data)

theorem adler32_eq_iff {p q : List UInt16} : adler32 p = adler32 q ↔
    reduce 65521 (total (1, 0) (p.map UInt16.toNat)) =
      reduce 65521 (total (1, 0) (q.map UInt16.toNat)) := by
  rw [← UInt32.toNat_inj, adler32_toNat, adler32_toNat, joined_eq_iff (by decide) (by decide)]

theorem fletcher32_eq_iff {p q : List UInt16} : fletcher32 p = fletcher32 q ↔
    reduce 65535 (total (0, 0) (p.map UInt16.toNat)) =
      reduce 65535 (total (0, 0) (q.map UInt16.toNat)) := by
  rw [← UInt32.toNat_inj, fletcher32_toNat, fletcher32_toNat, joined_eq_iff (by decide) (by decide)]

/-- A prime divides the difference that a distance leaves only where it divides one of them. -/
theorem prime_distance_iff {p k v w : Nat} (hp : p.Prime) :
    k * v ≡ k * w [MOD p] ↔ p ∣ k ∨ v ≡ w [MOD p] := by
  constructor
  · intro h
    by_cases hk : p ∣ k
    · exact .inl hk
    · exact .inr (Nat.ModEq.cancel_left_of_coprime ((hp.coprime_iff_not_dvd).mpr hk) h)
  · rintro (hk | h)
    · have hz (x : Nat) : k * x ≡ 0 [MOD p] :=
        (Nat.modEq_zero_iff_dvd).mpr (Dvd.dvd.mul_right hk x)
      exact (hz v).trans (hz w).symm
    · exact h.mul_left k

theorem adler_prime : Nat.Prime 65521 := by norm_num

/-- The prime modulus of Adler32: a changed word, or two words exchanged at any distance below it,
go unnoticed exactly when they are congruent. Fletcher32 has a composite modulus, and misses an
exchange whenever the distance makes up for the factors the difference lacks. -/
theorem exchanges_told_apart_iff (xs mid ys : List UInt16) (v w : UInt16) :
    (adler32 (xs ++ v :: ys) = adler32 (xs ++ w :: ys) ↔ v.toNat ≡ w.toNat [MOD 65521]) ∧
    (adler32 (xs ++ v :: (mid ++ w :: ys)) = adler32 (xs ++ w :: (mid ++ v :: ys)) ↔
      65521 ∣ mid.length + 1 ∨ v.toNat ≡ w.toNat [MOD 65521]) ∧
    (fletcher32 (xs ++ v :: (mid ++ w :: ys)) = fletcher32 (xs ++ w :: (mid ++ v :: ys)) ↔
      (mid.length + 1) * v.toNat ≡ (mid.length + 1) * w.toNat [MOD 65535]) := by
  simp only [adler32_eq_iff, fletcher32_eq_iff, List.map_append, List.map_cons]
  refine ⟨replace_iff _ _, ?_, ?_⟩
  · rw [exchange_iff, List.length_map]
    exact prime_distance_iff adler_prime
  · rw [exchange_iff, List.length_map]

/-- Two words 257 apart whose difference is 255 deceive Fletcher32, and not Adler32. -/
example : fletcher32 (5 :: (List.replicate 256 0 ++ [260])) =
    fletcher32 (260 :: (List.replicate 256 0 ++ [5])) := by decide +kernel

/-- The checksum of a whole from those of its parts, where the second has `n` words. -/
def combined (m a n x y : Nat) : Nat :=
  joined m (x % 65536 + y % 65536 + (m - a),
    x / 65536 + n * (x % 65536 + (m - a)) + y / 65536)

theorem joined_parts (hm : 0 < m) (hle : m ≤ 65536) (s : Nat × Nat) :
    joined m s % 65536 = s.1 % m ∧ joined m s / 65536 = s.2 % m := by
  have h1 := Nat.mod_lt s.1 hm
  simp only [joined]
  omega

theorem combined_total (hm : 0 < m) (hle : m ≤ 65536) (ha : a ≤ m) (xs ys : List Nat) :
    joined m (total (a, 0) (xs ++ ys)) =
      combined m a ys.length (joined m (total (a, 0) xs)) (joined m (total (a, 0) ys)) := by
  obtain ⟨hfst, hsnd⟩ := total_combine a xs ys
  obtain ⟨hx1, hx2⟩ := joined_parts hm hle (total (a, 0) xs)
  obtain ⟨hy1, hy2⟩ := joined_parts hm hle (total (a, 0) ys)
  have hmod (x : Nat) : x % m ≡ x [MOD m] := Nat.mod_modEq x m
  have hback : m - a + a ≡ 0 [MOD m] := by
    rw [Nat.sub_add_cancel ha]
    exact (Nat.modEq_zero_iff_dvd).mpr (Nat.dvd_refl m)
  rw [combined, joined_eq_iff hm hle, reduce_eq_iff, hx1, hx2, hy1, hy2]
  constructor
  · -- the start is in both parts, so one of them is taken back
    apply Nat.ModEq.add_right_cancel' a
    dsimp only
    rw [hfst, Nat.add_assoc _ (m - a) a]
    exact (((hmod _).add (hmod _)).add hback).symm
  · apply Nat.ModEq.add_right_cancel' (ys.length * a)
    dsimp only
    have hcollect (x y z : Nat) : x + ys.length * (y + (m - a)) + z + ys.length * a =
        x + ys.length * y + z + ys.length * (m - a + a) := by ring
    rw [hsnd, hcollect]
    have hfirst := (hmod (total (a, 0) xs).2).add ((hmod (total (a, 0) xs).1).mul_left ys.length)
    have hparts := hfirst.add (hmod (total (a, 0) ys).2)
    exact (hparts.add (hback.mul_left ys.length)).symm

/-- Both checksums can be computed piece by piece: that of a whole follows from those of two parts
and the number of words in the second. -/
theorem checksums_combine (p q : List UInt16) :
    (adler32 (p ++ q)).toNat =
      combined 65521 1 q.length (adler32 p).toNat (adler32 q).toNat ∧
    (fletcher32 (p ++ q)).toNat =
      combined 65535 0 q.length (fletcher32 p).toNat (fletcher32 q).toNat := by
  simp only [adler32_toNat, fletcher32_toNat, List.map_append]
  constructor
  · rw [combined_total (by decide) (by decide) (by decide), List.length_map]
  · rw [combined_total (by decide) (by decide) (by decide), List.length_map]

end GameNetwork.Proofs
