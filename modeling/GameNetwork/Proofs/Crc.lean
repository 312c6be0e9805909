import GameNetwork.ErrorDetection
import GameNetwork.Lib.Crc

namespace GameNetwork.Proofs
open CRC32

/-- The shift after the loop of `ReverseBits`. A shift by the whole width meets only zero. -/
theorem reverse_rest {reverse p_nBits : UInt32} (h : p_nBits.toNat < 32 ∨ reverse = 0) {i : Nat}
    (hi : i < 32) :
    (reverse <<< p_nBits).toBitVec.getLsbD i =
      (!decide (i < p_nBits.toNat) && reverse.toBitVec.getLsbD (i - p_nBits.toNat)) := by
  rcases h with h | rfl
  · have hm : p_nBits.toNat % 32 = p_nBits.toNat := Nat.mod_eq_of_lt h
    rw [UInt32.toBitVec_shiftLeft, BitVec.shiftLeft_eq', BitVec.getLsbD_shiftLeft]
    simp only [BitVec.toNat_umod, UInt32.toNat_toBitVec]
    simp [hm, hi]
  · simp

/-- A turn of the loop moves the low bit of `p_number` under `reverse`. -/
theorem reverse_turn (p_number reverse : UInt32) {i : Nat} (hi : i < 32) :
    ((reverse <<< 1) ||| (p_number &&& 1)).toBitVec.getLsbD i =
      if i = 0 then p_number.toBitVec.getLsbD 0 else reverse.toBitVec.getLsbD (i - 1) := by
  have hand : (p_number &&& 1).toBitVec.getLsbD i =
      (decide (i = 0) && p_number.toBitVec.getLsbD 0) := by
    rw [UInt32.toBitVec_and]
    change (p_number.toBitVec &&& 1#32).getLsbD i = _
    rw [BitVec.and_one_eq_setWidth_ofBool_getLsbD]
    cases i <;> simp
  have hshl : (reverse <<< 1).toBitVec.getLsbD i =
      (!decide (i = 0) && reverse.toBitVec.getLsbD (i - 1)) := by
    rw [reverse_rest (.inl (by decide)) hi]
    cases i <;> simp
  rw [UInt32.toBitVec_or, BitVec.getLsbD_or, hshl, hand]
  by_cases h : i = 0 <;> simp [h]

/-- A turn takes one bit off the number and one off the width. -/
theorem turn_bounds {p_number p_nBits : UInt32} (h : p_number ≠ 0) (hn : p_number.toNat < 2 ^ p_nBits.toNat) :
    1 ≤ p_nBits.toNat ∧ (p_nBits - 1).toNat = p_nBits.toNat - 1 ∧
      (p_number >>> 1).toNat = p_number.toNat / 2 ∧
      2 ^ p_nBits.toNat = 2 * 2 ^ (p_nBits.toNat - 1) := by
  have hpos : 0 < p_number.toNat := by
    apply Nat.pos_of_ne_zero
    intro h0
    exact h (UInt32.toNat_inj.mp h0)
  have hnb : 1 ≤ p_nBits.toNat := by
    apply Nat.pos_of_ne_zero
    intro h0
    rw [h0] at hn
    omega
  refine ⟨hnb, ?_, ?_, ?_⟩
  · rw [UInt32.toNat_sub_of_le _ _ (by rw [UInt32.le_iff_toNat_le]; exact hnb)]
    rfl
  · rw [UInt32.toNat_shiftRight]
    simp [Nat.shiftRight_eq_div_pow]
  · rw [Nat.mul_comm, ← Nat.pow_succ, Nat.succ_eq_add_one, Nat.sub_add_cancel hnb]

/-- What the loop of `ReverseBits` makes of the bits still in `p_number`: they end up reversed
below those that `reverse` has. -/
theorem reverseLoop_bits {turns : Nat} {p_number reverse p_nBits : UInt32}
    (ht : p_number.toNat < 2 ^ turns) (hn : p_number.toNat < 2 ^ p_nBits.toNat)
    (hb : p_nBits.toNat ≤ 32) (hz : p_number = 0 → p_nBits.toNat < 32 ∨ reverse = 0)
    {i : Nat} (hi : i < 32) :
    (reverseLoop turns p_number reverse p_nBits).toBitVec.getLsbD i =
      if i < p_nBits.toNat then p_number.toBitVec.getLsbD (p_nBits.toNat - 1 - i)
      else reverse.toBitVec.getLsbD (i - p_nBits.toNat) := by
  induction turns generalizing p_number reverse p_nBits with
  | zero =>
    have h : p_number = 0 := UInt32.toNat_inj.mp (by simpa using ht)
    rw [reverseLoop, reverse_rest (hz h) hi, h]
    by_cases hlt : i < p_nBits.toNat <;> simp [hlt]
  | succ turns ih =>
    rw [reverseLoop]
    by_cases h : p_number = 0
    · rw [if_pos h, reverse_rest (hz h) hi, h]
      by_cases hlt : i < p_nBits.toNat <;> simp [hlt]
    · obtain ⟨hnb, hsub, hhalf, hpow⟩ := turn_bounds h hn
      rw [if_neg h, ih (by rw [hhalf]; omega) (by rw [hhalf, hsub]; omega) (by omega)
        (fun _ => .inl (by omega)), hsub]
      have hbit (j : Nat) : (p_number >>> 1).toBitVec.getLsbD j = p_number.toBitVec.getLsbD (j + 1) := by
        rw [UInt32.toBitVec_shiftRight, BitVec.ushiftRight_eq', BitVec.getLsbD_ushiftRight,
          Nat.add_comm]
        rfl
      rw [hbit]
      by_cases hlow : i < p_nBits.toNat - 1
      · rw [if_pos hlow, if_pos (by omega)]
        congr 1
        omega
      · rw [if_neg hlow, reverse_turn _ _ (by omega)]
        by_cases hlast : i < p_nBits.toNat
        · rw [if_pos (by omega), if_pos hlast]
          congr 1
          omega
        · rw [if_neg (by omega), if_neg hlast]
          congr 1
          omega

/-- Of a number of at most `p_nBits` bits, `ReverseBits` has them reversed in its lowest bits. -/
theorem reverseBits_bits {p_number p_nBits : UInt32} (hn : p_number.toNat < 2 ^ p_nBits.toNat)
    (hb : p_nBits.toNat ≤ 32) {i : Nat} (hi : i < p_nBits.toNat) :
    (reverseBits p_number p_nBits).toBitVec.getLsbD i =
      p_number.toBitVec.getLsbD (p_nBits.toNat - 1 - i) := by
  rw [reverseBits, reverseLoop_bits p_number.toNat_lt hn hb (fun h => .inr h) (by omega),
    if_pos hi]

theorem reverseBits_word (p_number : UInt32) :
    (reverseBits p_number polynomialWidth).toBitVec = p_number.toBitVec.reverse := by
  apply BitVec.eq_of_getLsbD_eq
  intro i hi
  rw [reverseBits_bits p_number.toNat_lt (by decide) hi, BitVec.getLsbD_reverse,
    BitVec.getMsbD_eq_getLsbD]
  simp [hi, polynomialWidth]

/-- The stray bits above the eight are shifted out. -/
theorem reverseBits_byte (byte : UInt8) :
    (reverseBits byte.toUInt32 8 <<< (polynomialWidth - 8)).toBitVec.reverse =
      byte.toUInt32.toBitVec := by
  have hlt : byte.toUInt32.toNat < 2 ^ (8 : UInt32).toNat := by
    rw [UInt8.toNat_toUInt32]
    exact byte.toNat_lt
  apply BitVec.eq_of_getLsbD_eq
  intro i hi
  have hshift : (polynomialWidth - 8).toNat = 24 := rfl
  rw [BitVec.getLsbD_reverse, BitVec.getMsbD_eq_getLsbD, reverse_rest (.inl (by decide)) (by omega),
    hshift]
  by_cases h : i < 8
  · have hback : (8 : UInt32).toNat - 1 - (32 - 1 - i - 24) = i := by
      change 8 - 1 - (32 - 1 - i - 24) = i
      omega
    rw [reverseBits_bits hlt (by decide) (by change _ < 8; omega), hback]
    simp [hi, show ¬ 31 - i < 24 by omega]
  · rw [UInt8.toBitVec_toUInt32, BitVec.getLsbD_setWidth]
    simp [show 31 - i < 24 by omega, BitVec.getLsbD_of_ge byte.toBitVec i (by omega)]

theorem shiftOut_toBitVec (remainder : UInt32) :
    (shiftOut remainder).toBitVec = Crc.climb polynomial.toBitVec remainder.toBitVec := by
  have hbit : remainder &&& topBit ≠ 0 ↔ remainder.toBitVec.msb = true := by
    have htop : topBit.toBitVec = BitVec.twoPow 32 31 := by decide
    rw [ne_eq, ← UInt32.toBitVec_inj, UInt32.toBitVec_and, htop, BitVec.and_twoPow]
    rw [BitVec.msb_eq_getLsbD_last]
    change ¬ (if remainder.toBitVec.getLsbD 31 then BitVec.twoPow 32 31 else 0#32) = 0#32 ↔
      remainder.toBitVec.getLsbD 31 = true
    cases remainder.toBitVec.getLsbD 31 <;> decide
  unfold shiftOut Crc.climb
  by_cases h : remainder &&& topBit ≠ 0
  · rw [if_pos h, if_pos (hbit.mp h)]
    rfl
  · rw [if_neg h, if_neg (mt hbit.mpr h)]
    rfl

theorem shiftsOut_toBitVec (n : Nat) (remainder : UInt32) :
    (shiftOut^[n] remainder).toBitVec =
      (Crc.climb polynomial.toBitVec)^[n] remainder.toBitVec := by
  induction n generalizing remainder with
  | zero => rfl
  | succ n ih => rw [Function.iterate_succ_apply, ih, shiftOut_toBitVec]; rfl

/-- The remainder of the bitwise loop with a message byte let in. -/
def letIn (remainder : UInt32) (byte : UInt8) : UInt32 :=
  remainder ^^^ (reverseBits byte.toUInt32 8 <<< (polynomialWidth - 8))

/-- The index of the lookup, moved to where `InitTable` starts an entry. -/
def lookedUp (remainder : UInt32) (byte : UInt8) : UInt32 :=
  (reverseBits byte.toUInt32 8 ^^^ (remainder >>> (polynomialWidth - 8))).toUInt8.toUInt32 <<<
    (polynomialWidth - 8)

theorem letIn_bits (remainder : UInt32) (byte : UInt8) {i : Nat} (hi : i < 32) :
    (letIn remainder byte).toBitVec.getLsbD i = (remainder.toBitVec.getLsbD i ^^
      (!decide (i < 24) && (reverseBits byte.toUInt32 8).toBitVec.getLsbD (i - 24))) := by
  have hshift : (polynomialWidth - 8).toNat = 24 := rfl
  rw [letIn, UInt32.toBitVec_xor, BitVec.getLsbD_xor, reverse_rest (.inl (by decide)) hi, hshift]

/-- The index of the lookup is the top byte of the remainder with the message byte let in. -/
theorem lookedUp_bits (remainder : UInt32) (byte : UInt8) {i : Nat} (hi : i < 32) :
    (lookedUp remainder byte).toBitVec.getLsbD i =
      (!decide (i < 24) && (letIn remainder byte).toBitVec.getLsbD i) := by
  have hshift : (polynomialWidth - 8).toNat = 24 := rfl
  have hdown : (remainder >>> (polynomialWidth - 8)).toBitVec = remainder.toBitVec >>> 24 := rfl
  rw [letIn_bits _ _ hi, lookedUp, reverse_rest (.inl (by decide)) hi, hshift]
  by_cases h : i < 24
  · simp [h]
  · have hback : 24 + (i - 24) = i := by omega
    rw [UInt8.toBitVec_toUInt32, UInt32.toBitVec_toUInt8, BitVec.getLsbD_setWidth,
      BitVec.getLsbD_setWidth, UInt32.toBitVec_xor, BitVec.getLsbD_xor, hdown,
      BitVec.getLsbD_ushiftRight, hback, Bool.xor_comm]
    simp [h, show i - 24 < 8 by omega, show i - 24 < 32 by omega]

/-- What the lookup leaves out of the register is the rest of the remainder. -/
theorem unlooked_bits (remainder : UInt32) (byte : UInt8) :
    ((lookedUp remainder byte).toBitVec ^^^ (letIn remainder byte).toBitVec) <<< 8 =
      remainder.toBitVec <<< 8 := by
  apply BitVec.eq_of_getLsbD_eq
  intro i hi
  have hlow : i - 8 < 24 := by omega
  rw [BitVec.getLsbD_shiftLeft, BitVec.getLsbD_shiftLeft, BitVec.getLsbD_xor,
    lookedUp_bits _ _ (by omega), letIn_bits _ _ (by omega)]
  simp [hlow]

/-- A lookup in the table does the eight shifts of the top byte at once. -/
theorem tableStep_eq_bitStep (remainder : UInt32) (byte : UInt8) :
    tableStep remainder byte = bitStep remainder byte := by
  have htop (i : Nat) (hi : i < 8) : (lookedUp remainder byte).toBitVec.getMsbD i =
      (letIn remainder byte).toBitVec.getMsbD i := by
    rw [BitVec.getMsbD_eq_getLsbD, BitVec.getMsbD_eq_getLsbD, lookedUp_bits _ _ (by omega)]
    simp [show ¬ 31 - i < 24 by omega]
  apply UInt32.toBitVec_inj.mp
  calc (tableStep remainder byte).toBitVec
      = (shiftOut^[8] (lookedUp remainder byte)).toBitVec ^^^ (remainder.toBitVec <<< 8) := rfl
    _ = (Crc.climb polynomial.toBitVec)^[8] (lookedUp remainder byte).toBitVec ^^^
          (((lookedUp remainder byte).toBitVec ^^^ (letIn remainder byte).toBitVec) <<< 8) := by
        rw [shiftsOut_toBitVec, unlooked_bits]
    _ = (Crc.climb polynomial.toBitVec)^[8] (letIn remainder byte).toBitVec :=
        (Crc.climbs_split _ htop).symm
    _ = (bitStep remainder byte).toBitVec := (shiftsOut_toBitVec _ _).symm

/-- The table-driven CRC is the one computed bit by bit. -/
theorem table_based_eq_getCRC (p_data : List UInt8) : getCRCTableBased p_data = getCRC p_data := by
  have hstep : tableStep = bitStep := by
    funext remainder byte
    exact tableStep_eq_bitStep remainder byte
  rw [getCRCTableBased, hstep, getCRC]

/-- The code's register is the mirror image of the reflected one. -/
def Mirrors (remainder register : UInt32) : Prop :=
  remainder.toBitVec.reverse = register.toBitVec

theorem tableStep_mirrors {remainder register : UInt32} (h : Mirrors remainder register)
    (byte : UInt8) : Mirrors (tableStep remainder byte) (Crc.ieeeByte register byte) := by
  have hpoly : polynomial.toBitVec.reverse = Crc.ieeePolynomial := by decide +kernel
  rw [tableStep_eq_bitStep, Mirrors, bitStep, shiftsOut_toBitVec, Crc.reverse_climbs, hpoly,
    UInt32.toBitVec_xor, Crc.reverse_xor, reverseBits_byte, h, Crc.ieeeByte_toBitVec]

theorem foldl_mirrors {remainder register : UInt32} (h : Mirrors remainder register)
    (p_data : List UInt8) :
    Mirrors (p_data.foldl tableStep remainder) (p_data.foldl Crc.ieeeByte register) := by
  induction p_data generalizing remainder register with
  | nil => exact h
  | cons byte p_data ih => exact ih (tableStep_mirrors h byte)

/-- The CRC of the code by a reflected register that takes in the message bit by bit. -/
theorem getCRCTableBased_bits (p_data : List UInt8) :
    (getCRCTableBased p_data).toBitVec =
      ~~~((Crc.bitsOf p_data).foldl (Crc.feed Crc.ieeePolynomial) (BitVec.allOnes 32)) := by
  have h : Mirrors initialRemainder 0xFFFFFFFF := by
    unfold Mirrors
    decide +kernel
  rw [getCRCTableBased, UInt32.toBitVec_xor, reverseBits_word, foldl_mirrors h, ← Crc.ieee_toBitVec,
    Crc.ieee, UInt32.toBitVec_not]
  exact BitVec.xor_allOnes

/-- The CRC the code computes is the CRC-32 of IEEE 802.3. -/
theorem table_based_eq_ieee (p_data : List UInt8) : getCRCTableBased p_data = Crc.ieee p_data := by
  apply UInt32.toBitVec_inj.mp
  rw [getCRCTableBased_bits, Crc.ieee_toBitVec]

end GameNetwork.Proofs
