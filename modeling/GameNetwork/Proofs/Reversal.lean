import GameNetwork.Proofs.Crc

namespace GameNetwork.Proofs
open CRC32

variable {p_number p_nBits : UInt32} {turns : Nat}

/-- The loop of `ReverseBits` ends within its turns, takes nothing from a width of 0, and the
shift behind it is by less than the 32 bits of the number. Those in the loop are by 1. -/
def LoopFits : Nat → UInt32 → UInt32 → Prop
  | 0, p_number, p_nBits => p_number = 0 ∧ p_nBits.toNat < 32
  | turns + 1, p_number, p_nBits =>
    if p_number = 0 then p_nBits.toNat < 32
    else 1 ≤ p_nBits.toNat ∧ LoopFits turns (p_number >>> 1) (p_nBits - 1)

/-- `ReverseBits` reverses a number of `p_nBits` bits and stays within the language. -/
structure Reverses (p_number p_nBits : UInt32) : Prop where
  fits : LoopFits 32 p_number p_nBits
  low : ∀ j, j < p_nBits.toNat →
    (reverseBits p_number p_nBits).toNat.testBit j = p_number.toNat.testBit (p_nBits.toNat - 1 - j)
  high : ∀ j, p_nBits.toNat ≤ j → (reverseBits p_number p_nBits).toNat.testBit j = false

/-- Only a zero of full width is shifted too far. -/
theorem loopFits (ht : p_number.toNat < 2 ^ turns) (hn : p_number.toNat < 2 ^ p_nBits.toNat)
    (hb : p_nBits.toNat ≤ 32) (hz : ¬ (p_number = 0 ∧ p_nBits.toNat = 32)) :
    LoopFits turns p_number p_nBits := by
  induction turns generalizing p_number p_nBits with
  | zero =>
    have h : p_number = 0 := UInt32.toNat_inj.mp (by simpa using ht)
    exact ⟨h, lt_of_le_of_ne hb fun hw => hz ⟨h, hw⟩⟩
  | succ turns ih =>
    rw [LoopFits]
    by_cases h : p_number = 0
    · rw [if_pos h]
      exact lt_of_le_of_ne hb fun hw => hz ⟨h, hw⟩
    · obtain ⟨hnb, hsub, hhalf, hpow⟩ := turn_bounds h hn
      rw [if_neg h]
      refine ⟨hnb, ih (by rw [hhalf]; omega) (by rw [hhalf, hsub]; omega) (by omega) ?_⟩
      rintro ⟨-, hw⟩
      omega

theorem loopFits_iff (hn : p_number.toNat < 2 ^ p_nBits.toNat) (hb : p_nBits.toNat ≤ 32) :
    LoopFits 32 p_number p_nBits ↔ ¬ (p_number = 0 ∧ p_nBits.toNat = 32) := by
  constructor
  · rintro h ⟨rfl, hw⟩
    rw [LoopFits, if_pos rfl] at h
    omega
  · exact loopFits p_number.toNat_lt hn hb

/-- Above its width the result shows the number it started from. -/
theorem reverseBits_high (hn : p_number.toNat < 2 ^ p_nBits.toNat) (hb : p_nBits.toNat ≤ 32)
    {j : Nat} (hj : p_nBits.toNat ≤ j) (hj32 : j < 32) :
    (reverseBits p_number p_nBits).toNat.testBit j = p_number.toNat.testBit (j - p_nBits.toNat) := by
  change (reverseLoop 32 p_number p_number p_nBits).toBitVec.getLsbD j = _
  rw [reverseLoop_bits p_number.toNat_lt hn hb (fun h => .inr h) hj32, if_neg (by omega)]
  rfl

theorem two_pow_dvd_iff (k n : Nat) : 2 ^ k ∣ n ↔ ∀ i, i < k → n.testBit i = false := by
  rw [Nat.dvd_iff_mod_eq_zero]
  constructor
  · intro h i hi
    have hbit := Nat.testBit_mod_two_pow n k i
    rw [h, Nat.zero_testBit] at hbit
    simpa [hi] using hbit.symm
  · intro h
    apply Nat.eq_of_testBit_eq
    intro i
    rw [Nat.testBit_mod_two_pow, Nat.zero_testBit]
    by_cases hi : i < k
    · simp [h i hi]
    · simp [hi]

/-- `ReverseBits` reverses a number exactly when as many of its low bits are zero as the width
leaves over, and it is not a zero of full width. -/
theorem reverses_iff (p_number p_nBits : UInt32) (hb : p_nBits.toNat ≤ 32)
    (hn : p_number.toNat < 2 ^ p_nBits.toNat) :
    Reverses p_number p_nBits ↔
      2 ^ (32 - p_nBits.toNat) ∣ p_number.toNat ∧ ¬ (p_number = 0 ∧ p_nBits.toNat = 32) := by
  rw [two_pow_dvd_iff]
  constructor
  · intro h
    constructor
    · intro i hi
      have hbit := reverseBits_high hn hb (j := i + p_nBits.toNat) (by omega) (by omega)
      rwa [h.high _ (by omega), Nat.add_sub_cancel, eq_comm] at hbit
    · exact (loopFits_iff hn hb).mp h.fits
  · rintro ⟨hzero, hfull⟩
    constructor
    · exact (loopFits_iff hn hb).mpr hfull
    · exact fun j hj => reverseBits_bits hn hb hj
    · intro j hj
      by_cases hj32 : j < 32
      · rw [reverseBits_high hn hb hj hj32]
        exact hzero _ (by omega)
      · have hlt : (reverseBits p_number p_nBits).toNat < 2 ^ 32 := UInt32.toNat_lt _
        exact Nat.testBit_lt_two_pow (hlt.trans_le (Nat.pow_le_pow_right (by omega) (by omega)))

/-- Of 24 bits the lowest eight have to be zero. -/
theorem reverses_iff_sample : Reverses 0x300 24 ∧ ¬ Reverses 0x301 24 :=
  ⟨(reverses_iff 0x300 24 (by decide) (by decide)).mpr (by decide),
    fun h => absurd ((reverses_iff 0x301 24 (by decide) (by decide)).mp h) (by decide)⟩

/-- The byte 1 comes back as 0x180, with its own bit above the eight. -/
theorem reversal_keeps_number : ¬ ∀ p_number p_nBits : UInt32, 1 ≤ p_nBits.toNat →
    p_nBits.toNat ≤ 32 → p_number.toNat < 2 ^ p_nBits.toNat → Reverses p_number p_nBits := by
  intro h
  have hhigh := (h 1 8 (by decide) (by decide) (by decide)).high 8 (by decide)
  exact absurd hhigh (by decide)

end GameNetwork.Proofs
