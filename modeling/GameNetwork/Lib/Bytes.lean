import Mathlib.Algebra.Order.Ring.Nat
import Mathlib.Tactic.Ring

namespace Bytes

/-- The `n` low bytes of a number, most significant first. -/
def be : Nat → Nat → List UInt8
  | 0, _ => []
  | n + 1, v => UInt8.ofNat (v / 256 ^ n) :: be n v

/-- The number a byte string spells, most significant byte first. -/
def ofBe (bs : List UInt8) : Nat :=
  bs.foldl (fun acc b => acc * 256 + b.toNat) 0

@[simp] theorem length_be (n v : Nat) : (be n v).length = n := by
  induction n with
  | zero => rfl
  | succ n ih => simp [be, ih]

theorem ofBe_foldl (bs : List UInt8) (acc : Nat) :
    bs.foldl (fun acc b => acc * 256 + b.toNat) acc = acc * 256 ^ bs.length + ofBe bs := by
  induction bs generalizing acc with
  | nil => simp [ofBe]
  | cons b bs ih =>
    rw [ofBe, List.foldl_cons, List.foldl_cons, ih, ih, List.length_cons]
    ring

theorem ofBe_cons (b : UInt8) (bs : List UInt8) :
    ofBe (b :: bs) = b.toNat * 256 ^ bs.length + ofBe bs := by
  rw [ofBe, List.foldl_cons, ofBe_foldl]
  simp

theorem ofBe_lt (bs : List UInt8) : ofBe bs < 256 ^ bs.length := by
  induction bs with
  | nil => simp [ofBe]
  | cons b bs ih =>
    have hb : b.toNat + 1 ≤ 256 := b.toNat_lt
    have hm := Nat.mul_le_mul_right (256 ^ bs.length) hb
    rw [ofBe_cons, List.length_cons, pow_succ]
    rw [Nat.add_mul] at hm
    omega

/-- Reading back the bytes of a number gives the number, cut to the width. -/
theorem ofBe_be (n v : Nat) : ofBe (be n v) = v % 256 ^ n := by
  induction n with
  | zero => simp [be, ofBe, Nat.mod_one]
  | succ n ih =>
    have hsplit : v % 256 ^ (n + 1) = v % 256 ^ n + 256 ^ n * (v / 256 ^ n % 256) := by
      rw [pow_succ, Nat.mod_mul]
    rw [be, ofBe_cons, ih, length_be, hsplit, UInt8.toNat_ofNat']
    ring

/-- A byte string is determined by its length and the number it spells. -/
theorem be_ofBe (bs : List UInt8) (v : Nat) :
    be bs.length (v * 256 ^ bs.length + ofBe bs) = bs := by
  induction bs generalizing v with
  | nil => rfl
  | cons b bs ih =>
    have hlt := ofBe_lt bs
    have hpos : 0 < 256 ^ bs.length := Nat.pow_pos (by omega)
    have hre : v * 256 ^ (bs.length + 1) + (b.toNat * 256 ^ bs.length + ofBe bs) =
        (v * 256 + b.toNat) * 256 ^ bs.length + ofBe bs := by ring
    have hdiv : ((v * 256 + b.toNat) * 256 ^ bs.length + ofBe bs) / 256 ^ bs.length =
        v * 256 + b.toNat := by
      rw [Nat.add_comm, Nat.add_mul_div_right _ _ hpos, Nat.div_eq_of_lt hlt, Nat.zero_add]
    rw [ofBe_cons, List.length_cons, hre, be, hdiv, ih]
    congr 1
    apply UInt8.toNat_inj.mp
    have := b.toNat_lt
    simp only [UInt8.toNat_ofNat']
    omega

theorem uint16_ofBe_be (v : UInt16) : UInt16.ofNat (ofBe (be 2 v.toNat)) = v := by
  have hv : v.toNat < 256 ^ 2 := v.toNat_lt
  rw [ofBe_be, Nat.mod_eq_of_lt hv, UInt16.ofNat_toNat]

theorem uint32_ofBe_be (v : UInt32) : UInt32.ofNat (ofBe (be 4 v.toNat)) = v := by
  have hv : v.toNat < 256 ^ 4 := v.toNat_lt
  rw [ofBe_be, Nat.mod_eq_of_lt hv, UInt32.ofNat_toNat]

theorem uint64_ofBe_be (v : UInt64) : UInt64.ofNat (ofBe (be 8 v.toNat)) = v := by
  have hv : v.toNat < 256 ^ 8 := v.toNat_lt
  rw [ofBe_be, Nat.mod_eq_of_lt hv, UInt64.ofNat_toNat]

/-- The bytes of the number that some bytes spell are these bytes. -/
theorem be_ofBe_length {n : Nat} {bs : List UInt8} (h : bs.length = n) : be n (ofBe bs) = bs := by
  have hbytes := be_ofBe bs 0
  rwa [Nat.zero_mul, Nat.zero_add, h] at hbytes

theorem be_uint16_ofBe {bs : List UInt8} (h : bs.length = 2) :
    be 2 (UInt16.ofNat (ofBe bs)).toNat = bs := by
  have hlt : ofBe bs < 2 ^ 16 := by
    have := ofBe_lt bs
    rwa [h] at this
  rw [UInt16.toNat_ofNat', Nat.mod_eq_of_lt hlt, be_ofBe_length h]

theorem be_uint32_ofBe {bs : List UInt8} (h : bs.length = 4) :
    be 4 (UInt32.ofNat (ofBe bs)).toNat = bs := by
  have hlt : ofBe bs < 2 ^ 32 := by
    have := ofBe_lt bs
    rwa [h] at this
  rw [UInt32.toNat_ofNat', Nat.mod_eq_of_lt hlt, be_ofBe_length h]

theorem be_injective {n v w : Nat} (hv : v < 256 ^ n) (hw : w < 256 ^ n)
    (h : be n v = be n w) : v = w := by
  have hh := congrArg ofBe h
  rwa [ofBe_be, ofBe_be, Nat.mod_eq_of_lt hv, Nat.mod_eq_of_lt hw] at hh

end Bytes
