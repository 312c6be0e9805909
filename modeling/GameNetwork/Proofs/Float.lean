import GameNetwork.Float
import GameNetwork.Proofs.Bounds
import Mathlib.Data.Finset.Card

namespace GameNetwork.Proofs
open Buffer

variable {b : Buffer} {x : FloatBits}

/-- What `WriteFloat`, and then `ReadFloat` at the same position, make of a float. -/
def readBack (platform : FloatPlatform) (b : Buffer) (x : FloatBits) : Except Fault FloatBits :=
  match (do
      writeFloat platform x
      modify fun c => { c with index := b.index }
      readFloat platform : BufferM FloatBits).run b with
  | .ok value _ => .ok value
  | .error fault _ => .error fault

def ToldApart (platform : FloatPlatform) (b : Buffer) (x y : FloatBits) : Prop :=
  readBack platform b x ≠ readBack platform b y

/-- The exponent is all ones and the fraction is not zero. -/
def IsNaN (x : FloatBits) : Prop := x.toNat / 2 ^ 23 % 2 ^ 8 = 255 ∧ x.toNat % 2 ^ 23 ≠ 0

/-- Of either sign. -/
def IsZero (x : FloatBits) : Prop := x.toNat % 2 ^ 31 = 0

/-- The first byte in memory of the float that is stored. -/
def firstByte (platform : FloatPlatform) (x : FloatBits) : UInt8 :=
  UInt8.ofNat (platform.toFloat (platform.htonf x)).toNat

theorem length_nativeFloat (x : FloatBits) : (nativeFloat x).length = 4 := by simp [nativeFloat]

theorem nativeFloat_first (x : FloatBits) : (nativeFloat x).take 1 = [UInt8.ofNat x.toNat] := by
  simp [nativeFloat, Bytes.be]

section
variable (hdata : b.size ≤ b.data.length) (hlt : b.size < 2 ^ 31) (hroom : b.index + 4 ≤ b.size)
include hlt hroom

theorem checkRoomSizeT_room (what : String) : (checkRoomSizeT 4 what).run b = .ok () b := by
  have hsize : sizeT b.size = b.size.toNat := sizeT_eq (by omega) (by omega)
  have hsum : sizeT ((b.index : Int) + (4 : Nat)) = b.index + 4 := by
    rw [sizeT_eq (by omega) (by omega)]
    omega
  rw [checkRoomSizeT, ok_bind (EStateM.run_get _), hsize, hsum, if_neg (by omega)]
  rfl

include hdata

theorem writeFloat_room (platform : FloatPlatform) (x : FloatBits) :
    (writeFloat platform x).run b = .ok ()
      { b with
        data := patch b.data b.index (nativeFloat (platform.toFloat (platform.htonf x)))
        index := b.index + 4 } := by
  have hl := length_nativeFloat (platform.toFloat (platform.htonf x))
  rw [writeFloat, ok_bind (checkRoomSizeT_room hlt hroom writeText), store,
    ok_bind (EStateM.run_get _), hl, if_pos (by omega)]
  simp only [patch, hl]
  rfl

theorem readFloat_room (platform : FloatPlatform) :
    (readFloat platform).run b =
      .ok (platform.ntohf (UInt32.ofNat (Bytes.ofBe ((b.data.drop b.index).take 1))))
        { b with index := b.index + 4 } := by
  rw [readFloat, ok_bind (checkRoomSizeT_room hlt hroom readText), load, bind_assoc,
    ok_bind (EStateM.run_get _), if_pos (by omega)]
  rfl

/-- Of what was written, one byte decides what is read. -/
theorem readBack_eq (platform : FloatPlatform) (x : FloatBits) :
    readBack platform b x = .ok (platform.ntohf (firstByte platform x).toUInt32) := by
  have hw := writeFloat_room hdata hlt hroom platform x
  generalize hbs : nativeFloat (platform.toFloat (platform.htonf x)) = bs at hw
  have hl : bs.length = 4 := hbs ▸ length_nativeFloat _
  have hlen : (patch b.data b.index bs).length = b.data.length := length_patch bs (by omega)
  have hr := readFloat_room (b := { b with data := patch b.data b.index bs })
    (by rw [hlen]; exact hdata) hlt hroom platform
  have hfirst : ((patch b.data b.index bs).drop b.index).take 1 = [firstByte platform x] := by
    have hin : ((patch b.data b.index bs).drop b.index).take bs.length = bs :=
      patch_in (by omega)
    have hone := nativeFloat_first (platform.toFloat (platform.htonf x))
    rw [hbs, ← hin, List.take_take, hl] at hone
    exact hone
  rw [hfirst] at hr
  have hbyte : UInt32.ofNat (Bytes.ofBe [firstByte platform x]) =
      (firstByte platform x).toUInt32 := by
    simp [Bytes.ofBe]
  rw [hbyte] at hr
  have hseek : (modify fun c => { c with index := b.index } : BufferM Unit).run
      { b with data := patch b.data b.index bs, index := b.index + 4 } =
      .ok () { b with data := patch b.data b.index bs } := rfl
  rw [readBack, ok_bind hw, ok_bind hseek, hr]

end

/-- More floats than there are bytes cannot all be told apart, whatever the platform does. -/
theorem floats_collide (platform : FloatPlatform) {floats : Finset FloatBits}
    (h : 256 < floats.card) :
    ∃ x ∈ floats, ∃ y ∈ floats, x ≠ y ∧ firstByte platform x = firstByte platform y := by
  have hmaps : Set.MapsTo (fun x => (firstByte platform x).toNat) floats (Finset.range 256) := by
    intro x _
    simpa using (firstByte platform x).toNat_lt
  obtain ⟨x, hx, y, hy, hne, he⟩ := Finset.exists_ne_map_eq_of_card_lt_of_maps_to (by simpa) hmaps
  exact ⟨x, hx, y, hy, hne, UInt8.toNat_inj.mp he⟩

/-- The first floats from 1.0 on. -/
def fromOne : Finset FloatBits :=
  (Finset.range 257).image fun n => UInt32.ofNat (0x3F800000 + n)

theorem fromOne_card : fromOne.card = 257 := by
  rw [fromOne, Finset.card_image_of_injOn, Finset.card_range]
  intro m hm n hn he
  have hm' : m < 257 := by simpa using hm
  have hn' : n < 257 := by simpa using hn
  have hto := congrArg UInt32.toNat he
  simp only [UInt32.toNat_ofNat'] at hto
  omega

theorem fromOne_ordinary (h : x ∈ fromOne) : ¬ IsNaN x ∧ ¬ IsZero x := by
  obtain ⟨n, hn, rfl⟩ := Finset.mem_image.mp h
  have hn' : n < 257 := by simpa using hn
  simp only [IsNaN, IsZero, UInt32.toNat_ofNat']
  omega

/-- Two floats are told apart exactly when the platform tells the bytes apart that are read of
them. There is no platform and no position for which these are all floats. -/
theorem floats_told_apart_iff (platform : FloatPlatform) (b : Buffer)
    (hdata : b.size ≤ b.data.length) (hlt : b.size < 2 ^ 31) (hroom : b.index + 4 ≤ b.size) :
    (∀ x y, ToldApart platform b x y ↔
      platform.ntohf (firstByte platform x).toUInt32 ≠
        platform.ntohf (firstByte platform y).toUInt32) ∧
    ¬ ∀ x y, x ≠ y → ¬ IsNaN x → ¬ IsNaN y → ¬ IsZero x → ¬ IsZero y →
      ToldApart platform b x y := by
  have hiff (x y : FloatBits) : ToldApart platform b x y ↔
      platform.ntohf (firstByte platform x).toUInt32 ≠
        platform.ntohf (firstByte platform y).toUInt32 := by
    rw [ToldApart, readBack_eq hdata hlt hroom, readBack_eq hdata hlt hroom, ne_eq, ne_eq,
      Except.ok.injEq]
  refine ⟨hiff, fun h => ?_⟩
  have hcard : 256 < fromOne.card := by
    rw [fromOne_card]
    decide
  obtain ⟨x, hx, y, hy, hne, he⟩ := floats_collide platform hcard
  obtain ⟨hnx, hzx⟩ := fromOne_ordinary hx
  obtain ⟨hny, hzy⟩ := fromOne_ordinary hy
  exact (hiff x y).mp (h x y hne hnx hny hzx hzy) (by rw [he])

/-- The four bytes in the other order. -/
def swapLong (x : UInt32) : UInt32 := UInt32.ofNat (Bytes.ofBe (Bytes.be 4 x.toNat).reverse)

/-- The nearest `float` to an integer, the even one of two. -/
def nearestFloat (n : UInt32) : FloatBits :=
  let e := n.toNat.log2
  if n = 0 then 0
  else if e ≤ 23 then UInt32.ofNat ((e + 126) * 2 ^ 23 + n.toNat * 2 ^ (23 - e))
  else
    let unit := 2 ^ (e - 23)
    let rest := n.toNat % unit
    let up := unit < 2 * rest ∨ unit = 2 * rest ∧ n.toNat / unit % 2 = 1
    UInt32.ofNat ((e + 126) * 2 ^ 23 + n.toNat / unit + if up then 1 else 0)

/-- `htonf` and `ntohf` swap the bytes of the bit pattern. -/
def winsock : FloatPlatform where
  htonf := swapLong
  ntohf := swapLong
  toFloat := nearestFloat

theorem floats_told_apart_sample :
    (∀ x y, ToldApart winsock (view [0, 0, 0, 0] [] 0) x y ↔
      winsock.ntohf (firstByte winsock x).toUInt32 ≠
        winsock.ntohf (firstByte winsock y).toUInt32) ∧
    ¬ ∀ x y, x ≠ y → ¬ IsNaN x → ¬ IsNaN y → ¬ IsZero x → ¬ IsZero y →
      ToldApart winsock (view [0, 0, 0, 0] [] 0) x y :=
  floats_told_apart_iff winsock (view [0, 0, 0, 0] [] 0) (by decide) (by decide) (by decide)

/-- 1.0 and 2.0 both come back as 0.0. -/
theorem one_and_two_read_zero : ¬ ∀ b : Buffer, b.size ≤ b.data.length → b.size < 2 ^ 31 →
    b.index + 4 ≤ b.size → ∀ x y, x ≠ y → ¬ IsNaN x → ¬ IsNaN y → ¬ IsZero x → ¬ IsZero y →
      ToldApart winsock b x y := by
  intro h
  have hboth : readBack winsock (view [0, 0, 0, 0] [] 0) 0x3F800000 =
      readBack winsock (view [0, 0, 0, 0] [] 0) 0x40000000 := by decide +kernel
  exact h (view [0, 0, 0, 0] [] 0) (by decide) (by decide) (by decide) 0x3F800000 0x40000000
    (by decide) (by unfold IsNaN; decide) (by unfold IsNaN; decide) (by unfold IsZero; decide)
    (by unfold IsZero; decide) hboth

end GameNetwork.Proofs
