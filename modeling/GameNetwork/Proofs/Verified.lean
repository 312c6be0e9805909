import GameNetwork.Proofs.Written
import Mathlib.Data.List.GetD

namespace GameNetwork.Proofs
open Buffer

/-- What `VerifyPacketHMAC` returns, as a function of the datagram alone. -/
def hmacType (C : Crypto) (k : ShortSharedKey) (d : List UInt8) : PacketType :=
  if d.length ≤ 32 then .invalidPacket
  else if (C.hmacSha256 k (d.take (d.length - 32))).bytes ≠ d.drop (d.length - 32) then
    .invalidPacket
  else if UInt32.ofNat (Bytes.ofBe (d.take 4)) ≠ protocolId then .invalidPacket
  else PacketType.ofByte (d.getD 4 0)

/-- What `VerifyPacketCRC` returns or throws, as a function of the datagram alone. -/
def crcType (d : List UInt8) : Except Fault PacketType :=
  if d = [] then .ok .invalidPacket
  else if d.length < 4 then .error (.outOfRange readText)
  else if UInt32.ofNat (Bytes.ofBe (d.take 4)) ≠
      CRC32.getCRCTableBased (Bytes.be 4 protocolId.toNat ++ d.drop 4) then .ok .invalidPacket
  else if d.length = 4 then .error (.outOfRange readText)
  else .ok (PacketType.ofByte (d.getD 4 0))

/-- The datagram after `VerifyPacketCRC` has put the protocol id in place of the CRC. -/
def patched (d : List UInt8) : List UInt8 := Bytes.be 4 protocolId.toNat ++ d.drop 4

variable {C : Crypto} {k k' : ShortSharedKey} {d r m : List UInt8} {t : PacketType}

/-- A failed or too short receive verifies as nothing under any key. -/
theorem verifyPacketHMAC_small {b : Buffer} (h : b.size ≤ hmacSize) :
    (verifyPacketHMAC C k).run b = .ok .invalidPacket b := by
  rw [verifyPacketHMAC, ok_bind (EStateM.run_get _), if_pos h]
  rfl

theorem verifyPacketCRC_small {b : Buffer} (h : b.size ≤ 0) :
    verifyPacketCRC.run b = .ok .invalidPacket b := by
  rw [verifyPacketCRC, ok_bind (EStateM.run_get _), if_pos h]
  rfl

/-- `VerifyPacketHMAC` throws on no datagram, and leaves an accepted one at its body. -/
theorem verifyPacketHMAC_view (hd : d.length < 2 ^ 31) :
    ∃ i, (verifyPacketHMAC C k).run (view d r 0) = .ok (hmacType C k d) (view d r i) ∧
      (hmacType C k d ≠ .invalidPacket → i = 5) := by
  by_cases hs : d.length ≤ 32
  · have ht : hmacType C k d = .invalidPacket := by rw [hmacType, if_pos hs]
    exact ⟨0, by rw [ht]; exact verifyPacketHMAC_small (by simp [hmacSize]; omega),
      fun h => absurd ht h⟩
  have hsize : ((d.length : Int) - (hmacSize : Nat)).toNat = d.length - 32 := by
    simp only [hmacSize]; omega
  have hmsg := readBuffer_view (r := r) (n := d.length - 32) hd (i := 0) (by omega)
  have hmac := readBuffer_view (r := r) (n := hmacSize) hd (i := d.length - 32)
    (by simp only [hmacSize]; omega)
  have htake : (d.drop (d.length - 32)).take hmacSize = d.drop (d.length - 32) := by
    rw [List.take_of_length_le]
    simp only [List.length_drop, hmacSize]
    omega
  rw [Nat.zero_add, List.drop_zero] at hmsg
  rw [htake] at hmac
  rw [verifyPacketHMAC, ok_bind (EStateM.run_get _), view_size, if_neg (by simp only [hmacSize]; omega),
    hsize, ok_bind hmsg, ok_bind hmac, ok_bind rewind_view, hmacType, if_neg hs]
  by_cases hm : (C.hmacSha256 k (d.take (d.length - 32))).bytes ≠ d.drop (d.length - 32)
  · exact ⟨0, by rw [if_pos hm, if_pos hm]; rfl, fun h => absurd (if_pos hm) h⟩
  rw [if_neg hm, if_neg hm, ok_bind (readInteger_view hd (i := 0) (by omega)), List.drop_zero]
  by_cases hi : UInt32.ofNat (Bytes.ofBe (d.take 4)) ≠ protocolId
  · exact ⟨4, by rw [if_pos hi, if_pos hi]; rfl, fun h => absurd (if_pos hi) h⟩
  have hbyte : d.getD 4 0 = d[4] := List.getD_eq_getElem d 0 (by omega)
  rw [if_neg hi, if_neg hi, ok_bind (readByte_view hd (i := 4) (by omega)), hbyte]
  exact ⟨5, rfl, fun _ => rfl⟩

/-- `VerifyPacketCRC` throws only on datagrams shorter than a header. -/
theorem verifyPacketCRC_view (hd : d.length < 2 ^ 31) :
    ∃ b, verifyPacketCRC.run (view d r 0) =
        (match crcType d with
          | .ok t => .ok t b
          | .error e => .error e b) ∧
      (∀ t, crcType d = .ok t → t ≠ .invalidPacket → b = view (patched d) r 5) := by
  by_cases hnil : d = []
  · subst d
    exact ⟨view [] r 0, by rw [verifyPacketCRC_small (by simp)]; simp [crcType],
      fun t ht hne => absurd (by simpa [crcType] using ht.symm) hne⟩
  have hpos : 0 < d.length := List.length_pos_iff.mpr hnil
  rw [verifyPacketCRC, ok_bind (EStateM.run_get _), view_size, if_neg (by omega), crcType,
    if_neg hnil]
  by_cases hshort : d.length < 4
  · rw [error_bind (readInteger_view_short (i := 0) (by omega) (by omega)), if_pos hshort]
    exact ⟨_, rfl, fun t ht => by cases ht⟩
  have hsplit : d.take 4 ++ d.drop 4 = d := List.take_append_drop 4 d
  have hlen : (patched d).length = d.length := by simp [patched]; omega
  have hwrite : (writeInteger protocolId).run (view d r 0) =
      .ok () (view (patched d) r 4) := by
    have h := writeInteger_view (p := []) (o := d.take 4) (q := d.drop 4) (r := r)
      protocolId (by simpa using hd) (by simp; omega)
    simpa [patched] using h
  have hcov : (view (patched d) r 4).data.take (view (patched d) r 4).size.toNat =
      patched d := by
    rw [view_size, Int.toNat_natCast, view_data, List.take_left]
  rw [ok_bind (readInteger_view hd (i := 0) (by omega)), ok_bind rewind_view, ok_bind hwrite,
    ok_bind (EStateM.run_get _), hcov, if_neg hshort, List.drop_zero]
  by_cases hcrc : UInt32.ofNat (Bytes.ofBe (d.take 4)) ≠ CRC32.getCRCTableBased (patched d)
  · have hcrc' : UInt32.ofNat (Bytes.ofBe (d.take 4)) ≠
        CRC32.getCRCTableBased (Bytes.be 4 protocolId.toNat ++ d.drop 4) := hcrc
    rw [if_pos hcrc, if_pos hcrc']
    refine ⟨_, rfl, fun t ht hne => ?_⟩
    cases ht
    exact absurd rfl hne
  have hcrc' : ¬ UInt32.ofNat (Bytes.ofBe (d.take 4)) ≠
      CRC32.getCRCTableBased (Bytes.be 4 protocolId.toNat ++ d.drop 4) := hcrc
  rw [if_neg hcrc, if_neg hcrc']
  by_cases hfour : d.length = 4
  · rw [error_bind (readByte_view_short (by omega) (by omega)), if_pos hfour]
    exact ⟨_, rfl, fun t ht => by cases ht⟩
  have hbyte (h : 4 < (patched d).length) : (patched d)[4] = d.getD 4 0 := by
    rw [List.getD_eq_getElem d 0 (by omega)]
    simp [patched, List.getElem_append_right]
  rw [ok_bind (readByte_view (by omega) (by omega)), hbyte (by omega), if_neg hfour]
  exact ⟨_, rfl, fun t _ _ => rfl⟩

/-- What verifies under a key ends in its HMAC, and its type is its fifth byte. -/
theorem hmacType_ne_invalid (h : hmacType C k d ≠ .invalidPacket) :
    32 < d.length ∧ d = sealed C k (d.take (d.length - 32)) ∧
      hmacType C k d = PacketType.ofByte (d.getD 4 0) := by
  unfold hmacType at h
  split at h
  · exact absurd rfl h
  rename_i hlen
  split at h
  · exact absurd rfl h
  rename_i hmac
  split at h
  · exact absurd rfl h
  rename_i hid
  refine ⟨by omega, ?_, by rw [hmacType, if_neg hlen, if_neg hmac, if_neg hid]⟩
  rw [ne_eq, not_not] at hmac
  rw [sealed, hmac, List.take_append_drop]

/-- A datagram verifies as the type its fifth byte names, or as nothing. -/
theorem hmacType_cases (C : Crypto) (k : ShortSharedKey) (d : List UInt8) :
    hmacType C k d = PacketType.ofByte (d.getD 4 0) ∨ hmacType C k d = .invalidPacket := by
  by_cases h : hmacType C k d = .invalidPacket
  · exact .inr h
  · exact .inl (hmacType_ne_invalid h).2.2

theorem crcType_ne_invalid (h : crcType d = .ok t) (ht : t ≠ .invalidPacket) :
    4 < d.length ∧ t = PacketType.ofByte (d.getD 4 0) := by
  unfold crcType at h
  split at h
  · cases h; exact absurd rfl ht
  · split at h
    · cases h
    · split at h
      · cases h; exact absurd rfl ht
      · split at h
        · cases h
        · cases h
          exact ⟨by omega, rfl⟩

theorem getD_header (t : PacketType) (bs : List UInt8) : (header t ++ bs).getD 4 0 = t.toByte := by
  simp [header, List.getD_eq_getElem?_getD]

theorem getD_sealed_header (t : PacketType) (bs : List UInt8) :
    (sealed C k (header t ++ bs)).getD 4 0 = t.toByte := by
  rw [sealed, List.append_assoc, getD_header]

theorem getD_checked (t : PacketType) (key : List UInt8) : (checked t key).getD 4 0 = t.toByte := by
  simp [checked, List.getD_eq_getElem?_getD]

/-- A sealed message that verifies under a key has the HMAC of that key. -/
theorem sealed_hmac (h : hmacType C k (sealed C k' m) ≠ .invalidPacket) :
    C.hmacSha256 k m = C.hmacSha256 k' m := by
  have hs := (hmacType_ne_invalid h).2.1
  have hlen : (sealed C k' m).length - 32 = m.length := by rw [length_sealed]; omega
  have ht : (sealed C k' m).take m.length = m := by rw [sealed, List.take_left]
  rw [hlen, ht, sealed, sealed] at hs
  exact (Digest.ext (List.append_cancel_left hs)).symm

/-- What is sealed under a key verifies under it as the type in its header. -/
theorem hmacType_sealed (t : PacketType) (bs : List UInt8) :
    hmacType C k (sealed C k (header t ++ bs)) = PacketType.ofByte t.toByte := by
  have hlen := length_sealed C k (header t ++ bs)
  have htake : (sealed C k (header t ++ bs)).take (header t ++ bs).length = header t ++ bs := by
    rw [sealed, List.take_left]
  have hdrop : (sealed C k (header t ++ bs)).drop (header t ++ bs).length =
      (C.hmacSha256 k (header t ++ bs)).bytes := by rw [sealed, List.drop_left]
  have hid : (sealed C k (header t ++ bs)).take 4 = Bytes.be 4 protocolId.toNat := by
    rw [sealed, header, List.append_assoc, List.append_assoc, List.take_left' (Bytes.length_be _ _)]
  have hsub : (sealed C k (header t ++ bs)).length - 32 = (header t ++ bs).length := by omega
  rw [hmacType, if_neg (by rw [hlen]; simp), hsub, htake, hdrop, if_neg (by simp), hid,
    Bytes.uint32_ofBe_be, if_neg (by simp), getD_sealed_header]

/-- What was framed with its CRC verifies as the type it was framed with. -/
theorem crcType_checked (t : PacketType) (key : List UInt8) :
    crcType (checked t key) = .ok (PacketType.ofByte t.toByte) := by
  have hlen := length_checked t key
  have h4 (v : Nat) : (Bytes.be 4 v).length = 4 := Bytes.length_be _ _
  have hid : (checked t key).take 4 =
      Bytes.be 4 (CRC32.getCRCTableBased (header t ++ key)).toNat := by
    rw [checked, List.take_left' (h4 _)]
  have hrest : Bytes.be 4 protocolId.toNat ++ (checked t key).drop 4 = header t ++ key := by
    rw [checked, List.drop_left' (h4 _), header, List.append_assoc, List.singleton_append]
  rw [crcType, if_neg (List.ne_nil_of_length_pos (by omega)), if_neg (by omega), hid, hrest,
    Bytes.uint32_ofBe_be, if_neg (by simp), if_neg (by omega), getD_checked]

end GameNetwork.Proofs
