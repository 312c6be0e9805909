import Mathlib.Data.List.GetD
import Mathlib.Logic.Function.Iterate

namespace Crc

variable {w : Nat} {p r s : BitVec w}

/-- One shift of a register whose low end leaves first: a one that falls out brings the
polynomial in. -/
def shift (p r : BitVec w) : BitVec w := if r.getLsbD 0 then (r >>> 1) ^^^ p else r >>> 1

/-- The same with the high end leaving first. -/
def climb (p r : BitVec w) : BitVec w := if r.msb then (r <<< 1) ^^^ p else r <<< 1

/-- The register takes in one bit of a message. -/
def feed (p r : BitVec w) (b : Bool) : BitVec w := shift p (r ^^^ (BitVec.ofBool b).setWidth w)

theorem xor_cancel (a b p : BitVec w) : a ^^^ b = a ^^^ p ^^^ (b ^^^ p) := by
  rw [BitVec.xor_comm b p, ← BitVec.xor_assoc, BitVec.xor_assoc a p p, BitVec.xor_self,
    BitVec.xor_zero]

theorem shift_xor (p a b : BitVec w) : shift p (a ^^^ b) = shift p a ^^^ shift p b := by
  unfold shift
  rw [BitVec.getLsbD_xor, BitVec.ushiftRight_xor_distrib]
  cases a.getLsbD 0 <;> cases b.getLsbD 0
  · rfl
  · exact BitVec.xor_assoc _ _ _
  · change _ = (a >>> 1 ^^^ p) ^^^ b >>> 1
    rw [BitVec.xor_assoc, BitVec.xor_assoc, BitVec.xor_comm p]
    rfl
  · exact xor_cancel _ _ _

@[simp] theorem shift_zero (p : BitVec w) : shift p 0#w = 0#w := by simp [shift]

/-- A register whose last bit is not set only moves down. -/
theorem shift_even (h : r.getLsbD 0 = false) : shift p r = r >>> 1 := by
  simp [shift, h]

/-- Only zero is shifted to zero, since a polynomial that comes in sets the highest bit. -/
theorem shift_eq_zero (hp : p.msb = true) (h : shift p r = 0#w) : r = 0#w := by
  have hw : 0 < w := by
    rcases Nat.eq_zero_or_pos w with rfl | hw
    · rw [BitVec.eq_nil p] at hp
      cases hp
    · exact hw
  unfold shift at h
  split at h
  · have hm := congrArg BitVec.msb h
    simp [BitVec.msb_xor, hp] at hm
  · rename_i h0
    apply BitVec.eq_of_getLsbD_eq
    intro i hi
    cases i with
    | zero => rw [eq_false_of_ne_true h0, BitVec.getLsbD_zero]
    | succ i =>
      have hi := congrArg (fun x : BitVec w => x.getLsbD i) h
      simpa only [BitVec.getLsbD_ushiftRight, BitVec.getLsbD_zero, Nat.add_comm 1] using hi

theorem shift_injective (hp : p.msb = true) : Function.Injective (shift p) := by
  intro a b h
  apply BitVec.xor_eq_zero_iff.mp
  apply shift_eq_zero hp
  rw [shift_xor, h, BitVec.xor_self]

/-- A message of at most the register's width, its first bit lowest. -/
def word (w : Nat) (bs : List Bool) : BitVec w := (BitVec.ofBoolListLE bs).setWidth w

theorem getLsbD_word (bs : List Bool) (i : Nat) :
    (word w bs).getLsbD i = (decide (i < w) && bs.getD i false) := by
  rw [word, BitVec.getLsbD_setWidth, BitVec.getLsbD_ofBoolListLE]

theorem getElem_word (bs : List Bool) {i : Nat} (h : i < w) :
    (word w bs)[i] = bs.getD i false := by
  rw [← BitVec.getLsbD_eq_getElem, getLsbD_word]
  simp [h]

theorem word_cons (b : Bool) (bs : List Bool) :
    word w (b :: bs) = (BitVec.ofBool b).setWidth w ^^^ (word w bs <<< 1) := by
  apply BitVec.eq_of_getElem_eq
  intro i hi
  rw [BitVec.getElem_xor, BitVec.getElem_shiftLeft, getElem_word]
  cases i with
  | zero => simp
  | succ i => simp [getElem_word]

/-- Taking in a message that fits the register bit by bit is taking it in at once. -/
theorem foldl_feed_word (p r : BitVec w) (bs : List Bool) (hbs : bs.length ≤ w) :
    bs.foldl (feed p) r = (shift p)^[bs.length] (r ^^^ word w bs) := by
  induction bs generalizing r with
  | nil =>
    have hw : word w [] = 0#w := by simp [word, BitVec.ofBoolListLE]
    rw [hw, BitVec.xor_zero]
    rfl
  | cons b bs ih =>
    rw [List.length_cons] at hbs
    have hback : shift p (word w bs <<< 1) = word w bs := by
      rw [shift_even (by simp)]
      apply BitVec.eq_of_getLsbD_eq
      intro i hi
      rw [BitVec.getLsbD_ushiftRight, BitVec.getLsbD_shiftLeft, getLsbD_word, getLsbD_word]
      by_cases hn : 1 + i < w
      · simp [hn]
      · simp [hn, show bs.length ≤ i by omega]
    rw [List.foldl_cons, ih _ (by omega), List.length_cons, Function.iterate_succ_apply,
      word_cons, ← BitVec.xor_assoc, shift_xor, hback]
    rfl

theorem word_injective {bs cs : List Bool} (hl : bs.length = cs.length) (hbs : bs.length ≤ w)
    (h : word w bs = word w cs) : bs = cs := by
  apply List.ext_getElem hl
  intro i hb hc
  have hi := congrArg (fun x : BitVec w => x.getLsbD i) h
  simp only [getLsbD_word, show i < w by omega, decide_true, Bool.true_and] at hi
  simpa [hb, hc] using hi

/-- A register tells apart any two messages that fit it. -/
theorem foldl_feed_injective (hp : p.msb = true) {bs cs : List Bool}
    (hl : bs.length = cs.length) (hbs : bs.length ≤ w)
    (h : bs.foldl (feed p) r = cs.foldl (feed p) r) : bs = cs := by
  rw [foldl_feed_word p r bs hbs, foldl_feed_word p r cs (by omega), hl] at h
  have hx := (shift_injective hp).iterate cs.length h
  exact word_injective hl hbs ((BitVec.xor_right_inj r).mp hx)

/-- Two registers that differ still differ after the same message. -/
theorem foldl_feed_register (hp : p.msb = true) (bs : List Bool)
    (h : bs.foldl (feed p) r = bs.foldl (feed p) s) : r = s := by
  induction bs generalizing r s with
  | nil => exact h
  | cons b bs ih => exact (BitVec.xor_left_inj _).mp (shift_injective hp (ih h))

/-- Messages that differ only inside a window of the register's width leave different
registers. -/
theorem burst_detected (hp : p.msb = true) (r : BitVec w) {bs cs : List Bool} {k : Nat}
    (hl : bs.length = cs.length) (hne : bs ≠ cs)
    (hout : ∀ i, i < k ∨ k + w ≤ i → bs.getD i false = cs.getD i false) :
    bs.foldl (feed p) r ≠ cs.foldl (feed p) r := by
  have hget (i : Nat) (hb : i < bs.length) (hc : i < cs.length) (hi : i < k ∨ k + w ≤ i) :
      bs[i] = cs[i] := by
    have := hout i hi
    simpa [hb, hc] using this
  have hpre : bs.take k = cs.take k := by
    apply List.ext_getElem (by simp [hl])
    intro i hb hc
    simp only [List.length_take] at hb
    simpa using hget i (by omega) (by omega) (.inl (by omega))
  have hpost : (bs.drop k).drop w = (cs.drop k).drop w := by
    apply List.ext_getElem (by simp [hl])
    intro i hb hc
    simp only [List.length_drop] at hb
    simpa [Nat.add_assoc] using hget (k + (w + i)) (by omega) (by omega) (.inr (by omega))
  have hsplit (xs : List Bool) : xs = xs.take k ++ ((xs.drop k).take w ++ (xs.drop k).drop w) := by
    rw [List.take_append_drop, List.take_append_drop]
  intro h
  apply hne
  rw [hsplit bs, hsplit cs, hpre, hpost] at h ⊢
  rw [List.foldl_append, List.foldl_append, List.foldl_append, List.foldl_append] at h
  have hmid := foldl_feed_injective hp (by simp [hl]) (List.length_take_le _ _)
    (foldl_feed_register hp _ h)
  rw [hmid]

theorem climb_xor (p a b : BitVec w) : climb p (a ^^^ b) = climb p a ^^^ climb p b := by
  unfold climb
  rw [BitVec.msb_xor, BitVec.shiftLeft_xor_distrib]
  cases a.msb <;> cases b.msb
  · rfl
  · exact BitVec.xor_assoc _ _ _
  · change _ = (a <<< 1 ^^^ p) ^^^ b <<< 1
    rw [BitVec.xor_assoc, BitVec.xor_assoc, BitVec.xor_comm p]
    rfl
  · exact xor_cancel _ _ _

theorem reverse_xor (a b : BitVec w) : (a ^^^ b).reverse = a.reverse ^^^ b.reverse := by
  apply BitVec.eq_of_getLsbD_eq
  intro i hi
  simp [BitVec.getLsbD_reverse, BitVec.getMsbD_xor]

/-- The two registers are mirror images. -/
theorem reverse_climb (p r : BitVec w) : (climb p r).reverse = shift p.reverse r.reverse := by
  have hshl : (r <<< 1).reverse = r.reverse >>> 1 := by
    apply BitVec.eq_of_getLsbD_eq
    intro i hi
    simp [BitVec.getLsbD_reverse, Nat.add_comm]
  have hbit : r.reverse.getLsbD 0 = r.msb := by
    rw [BitVec.getLsbD_reverse, BitVec.msb]
  unfold climb shift
  rw [hbit]
  split
  · rw [reverse_xor, hshl]
  · exact hshl

theorem reverse_climbs (p r : BitVec w) (n : Nat) :
    ((climb p)^[n] r).reverse = (shift p.reverse)^[n] r.reverse := by
  induction n generalizing r with
  | zero => rfl
  | succ n ih => rw [Function.iterate_succ_apply, ih, reverse_climb]; rfl

theorem climbs_xor (p : BitVec w) (n : Nat) (a b : BitVec w) :
    (climb p)^[n] (a ^^^ b) = (climb p)^[n] a ^^^ (climb p)^[n] b := by
  induction n generalizing a b with
  | zero => rfl
  | succ n ih => rw [Function.iterate_succ_apply, climb_xor, ih]; rfl

/-- A register whose `n` highest bits are not set only moves up. -/
theorem climbs_low (p : BitVec w) {n : Nat} (h : ∀ i < n, r.getMsbD i = false) :
    (climb p)^[n] r = r <<< n := by
  induction n generalizing r with
  | zero => simp
  | succ n ih =>
    have hone : climb p r = r <<< 1 := by
      have := h 0 (by omega)
      simp [climb, BitVec.msb, this]
    have hnext : ∀ i < n, (r <<< 1).getMsbD i = false := by
      intro i hi
      simpa [BitVec.getMsbD_shiftLeft] using h (i + 1) (by omega)
    rw [Function.iterate_succ_apply, hone, ih hnext, ← BitVec.shiftLeft_add, Nat.add_comm]

/-- `n` shifts of a register: those of its `n` highest bits, and the rest of it moved up. -/
theorem climbs_split (p : BitVec w) {n : Nat} {t : BitVec w}
    (h : ∀ i < n, t.getMsbD i = r.getMsbD i) :
    (climb p)^[n] r = (climb p)^[n] t ^^^ ((t ^^^ r) <<< n) := by
  have hlow : ∀ i < n, (t ^^^ r).getMsbD i = false := by
    intro i hi
    rw [BitVec.getMsbD_xor, h i hi, Bool.xor_self]
  rw [← climbs_low p hlow, ← climbs_xor, ← BitVec.xor_assoc, BitVec.xor_self, BitVec.zero_xor]

/-- The CRC-32 of IEEE 802.3, one shift. -/
def ieeeShift (register : UInt32) : UInt32 :=
  if register &&& 1 = 1 then (register >>> 1) ^^^ 0xEDB88320 else register >>> 1

def ieeeByte (register : UInt32) (byte : UInt8) : UInt32 :=
  ieeeShift^[8] (register ^^^ byte.toUInt32)

/-- The CRC-32 of a byte string. -/
def ieee (bytes : List UInt8) : UInt32 := ~~~(bytes.foldl ieeeByte 0xFFFFFFFF)

def ieeePolynomial : BitVec 32 := 0xEDB88320#32

theorem ieeeShift_toBitVec (register : UInt32) :
    (ieeeShift register).toBitVec = shift ieeePolynomial register.toBitVec := by
  have hbit : register &&& 1 = 1 ↔ register.toBitVec.getLsbD 0 = true := by
    rw [← UInt32.toBitVec_inj, UInt32.toBitVec_and]
    change register.toBitVec &&& 1#32 = 1#32 ↔ _
    rw [BitVec.and_one_eq_setWidth_ofBool_getLsbD]
    cases register.toBitVec.getLsbD 0 <;> decide
  unfold ieeeShift shift
  by_cases h : register &&& 1 = 1
  · rw [if_pos h, if_pos (hbit.mp h)]
    rfl
  · rw [if_neg h, if_neg (mt hbit.mpr h)]
    rfl

theorem ieeeByte_toBitVec (register : UInt32) (byte : UInt8) :
    (ieeeByte register byte).toBitVec =
      (shift ieeePolynomial)^[8] (register.toBitVec ^^^ byte.toUInt32.toBitVec) := by
  have hshifts (n : Nat) (r : UInt32) :
      (ieeeShift^[n] r).toBitVec = (shift ieeePolynomial)^[n] r.toBitVec := by
    induction n generalizing r with
    | zero => rfl
    | succ n ih => rw [Function.iterate_succ_apply, ih, ieeeShift_toBitVec]; rfl
  rw [ieeeByte, hshifts, UInt32.toBitVec_xor]

/-- The bits of a byte, the lowest first. -/
def bitsOfByte (byte : UInt8) : List Bool := List.ofFn fun i : Fin 8 => byte.toBitVec.getLsbD i

/-- The bits of a byte string, byte by byte. -/
def bitsOf (bytes : List UInt8) : List Bool := bytes.flatMap bitsOfByte

/-- The bit of a byte string at a place, the bits of each byte counted from its lowest. -/
def bitAt (bytes : List UInt8) (n : Nat) : Bool := (bytes.getD (n / 8) 0).toBitVec.getLsbD (n % 8)

@[simp] theorem length_bitsOfByte (byte : UInt8) : (bitsOfByte byte).length = 8 := by
  simp [bitsOfByte]

@[simp] theorem length_bitsOf (bytes : List UInt8) : (bitsOf bytes).length = 8 * bytes.length := by
  induction bytes with
  | nil => rfl
  | cons byte bytes ih =>
    change (bitsOfByte byte ++ bitsOf bytes).length = _
    rw [List.length_append, length_bitsOfByte, ih, List.length_cons]
    omega

theorem getD_bitsOfByte (byte : UInt8) (i : Nat) :
    (bitsOfByte byte).getD i false = byte.toBitVec.getLsbD i := by
  rw [bitsOfByte, List.getD_eq_getElem?_getD, List.getElem?_ofFn]
  split
  · rfl
  · rename_i h
    exact (BitVec.getLsbD_of_ge _ _ (by omega)).symm

theorem bitAt_append (as bs : List UInt8) (n : Nat) :
    bitAt (as ++ bs) n =
      if n < 8 * as.length then bitAt as n else bitAt bs (n - 8 * as.length) := by
  split
  · rw [bitAt, List.getD_append _ _ _ _ (by omega), bitAt]
  · have hdiv : n / 8 - as.length = (n - 8 * as.length) / 8 := by omega
    have hmod : n % 8 = (n - 8 * as.length) % 8 := by omega
    rw [bitAt, List.getD_append_right _ _ _ _ (by omega), hdiv, hmod, bitAt]

theorem getD_bitsOf (bytes : List UInt8) (n : Nat) :
    (bitsOf bytes).getD n false = bitAt bytes n := by
  induction bytes generalizing n with
  | nil => simp [bitsOf, bitAt]
  | cons byte bytes ih =>
    change (bitsOfByte byte ++ bitsOf bytes).getD n false = _
    by_cases h : n < 8
    · rw [List.getD_append _ _ _ _ (by simpa using h), getD_bitsOfByte, bitAt,
        Nat.div_eq_of_lt h, Nat.mod_eq_of_lt h]
      rfl
    · have hdiv : n / 8 = (n - 8) / 8 + 1 := by omega
      have hmod : n % 8 = (n - 8) % 8 := by omega
      rw [List.getD_append_right _ _ _ _ (by simpa using h), length_bitsOfByte, ih, bitAt, bitAt,
        hdiv, hmod]
      rfl

/-- The bits of a byte string determine it. -/
theorem eq_of_bitAt {as bs : List UInt8} (hl : as.length = bs.length)
    (h : ∀ n, bitAt as n = bitAt bs n) : as = bs := by
  apply List.ext_getElem hl
  intro i ha hb
  apply UInt8.toBitVec_inj.mp
  apply BitVec.eq_of_getLsbD_eq
  intro j hj
  have hdiv : (8 * i + j) / 8 = i := by omega
  have hmod : (8 * i + j) % 8 = j := by omega
  simpa [bitAt, hdiv, hmod, ha, hb] using h (8 * i + j)

/-- A byte is taken in bit by bit, the lowest first. -/
theorem ieeeByte_bits (register : UInt32) (byte : UInt8) :
    (ieeeByte register byte).toBitVec =
      (bitsOfByte byte).foldl (feed ieeePolynomial) register.toBitVec := by
  have hword : word 32 (bitsOfByte byte) = byte.toUInt32.toBitVec := by
    apply BitVec.eq_of_getLsbD_eq
    intro i hi
    rw [getLsbD_word, getD_bitsOfByte, UInt8.toBitVec_toUInt32, BitVec.getLsbD_setWidth]
  rw [foldl_feed_word _ _ _ (by simp), length_bitsOfByte, hword, ieeeByte_toBitVec]

theorem ieee_toBitVec (bytes : List UInt8) :
    (ieee bytes).toBitVec = ~~~((bitsOf bytes).foldl (feed ieeePolynomial) (BitVec.allOnes 32)) := by
  have hfold (r : UInt32) : (bytes.foldl ieeeByte r).toBitVec =
      (bitsOf bytes).foldl (feed ieeePolynomial) r.toBitVec := by
    induction bytes generalizing r with
    | nil => rfl
    | cons byte bytes ih =>
      rw [List.foldl_cons, ih, ieeeByte_bits, ← List.foldl_append]
      rfl
  rw [ieee, UInt32.toBitVec_not, hfold]
  rfl

/-- Byte strings of one length that differ only inside 32 consecutive bits leave different
registers. -/
theorem bytes_burst {p : BitVec 32} (hp : p.msb = true) (r : BitVec 32) {as bs : List UInt8}
    {k : Nat} (hl : as.length = bs.length) (hne : as ≠ bs)
    (hout : ∀ n, bitAt as n ≠ bitAt bs n → k ≤ n ∧ n < k + 32) :
    (bitsOf as).foldl (feed p) r ≠ (bitsOf bs).foldl (feed p) r := by
  have hbits : bitsOf as ≠ bitsOf bs := by
    intro h
    apply hne
    apply eq_of_bitAt hl
    intro n
    rw [← getD_bitsOf, h, getD_bitsOf]
  apply burst_detected hp r (k := k) (by simp [hl]) hbits
  intro n hn
  rw [getD_bitsOf, getD_bitsOf]
  by_contra h
  have := hout n h
  omega

end Crc
