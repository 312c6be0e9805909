import GameNetwork.Proofs.RoundTrip
import GameNetwork.Proofs.Room

namespace GameNetwork.Proofs
open Buffer

variable {C : Crypto} {k : ShortSharedKey} {d m : List UInt8} {t : PacketType} {b b' : Buffer}

/-- A buffer as a receive leaves it: unread, its size inside the allocation or -1. -/
structure Incoming (b : Buffer) : Prop where
  index : b.index = 0
  size : b.size ≤ b.data.length
  size_lt : b.size < 2 ^ 31

/-- The bytes that the size counts. -/
def covered (b : Buffer) : List UInt8 := b.data.take b.size.toNat

/-- A message of header size or more that begins with the protocol id and a type, followed by
its HMAC. -/
structure Authentic (C : Crypto) (k : ShortSharedKey) (d : List UInt8) (t : PacketType)
    (m : List UInt8) : Prop where
  mac : d = m ++ (C.hmacSha256 k m).bytes
  header : minimumHeaderSize ≤ m.length
  id : m.take 4 = Bytes.be 4 protocolId.toNat
  type : ∃ byte, m[4]? = some byte ∧ byte ≠ 0 ∧ t = PacketType.ofByte byte

/-- `VerifyPacketHMAC` gives a type exactly to what is authentic under the key. -/
def CoversHeader (C : Crypto) (k : ShortSharedKey) (b : Buffer) : Prop :=
  ∀ t, t ≠ .invalidPacket →
    ((∃ b', (verifyPacketHMAC C k).run b = .ok t b') ↔ ∃ m, Authentic C k (covered b) t m)

/-- An HMAC behind a message of one to four bytes, where the two spell a header together. -/
structure Straddles (C : Crypto) (k : ShortSharedKey) (d : List UInt8) : Prop where
  longer : hmacSize < d.length
  shorter : d.length < minimumHeaderSize + hmacSize
  mac : d = sealed C k (d.take (d.length - hmacSize))
  id : d.take 4 = Bytes.be 4 protocolId.toNat
  type : d.getD 4 0 ≠ 0

theorem ofByte_ne_invalid {byte : UInt8} : PacketType.ofByte byte ≠ .invalidPacket ↔ byte ≠ 0 := by
  unfold PacketType.ofByte
  split <;> simp_all

/-- The first four bytes read as the protocol id when they are its bytes. -/
theorem id_iff (h : 4 ≤ d.length) :
    UInt32.ofNat (Bytes.ofBe (d.take 4)) = protocolId ↔
      d.take 4 = Bytes.be 4 protocolId.toNat := by
  constructor
  · intro hid
    rw [← hid, Bytes.be_uint32_ofBe (List.length_take_of_le h)]
  · intro hid
    rw [hid, Bytes.uint32_ofBe_be]

theorem mac_iff (n : Nat) : (C.hmacSha256 k (d.take n)).bytes = d.drop n ↔
    d = sealed C k (d.take n) := by
  constructor
  · intro h
    rw [sealed, h, List.take_append_drop]
  · intro h
    have hsplit := List.take_append_drop n d
    rw [sealed] at h
    exact List.append_cancel_left (h.symm.trans hsplit.symm)

/-- The verification in terms of the bytes alone. -/
theorem hmacType_eq_iff (ht : t ≠ .invalidPacket) :
    hmacType C k d = t ↔ 32 < d.length ∧ d = sealed C k (d.take (d.length - 32)) ∧
      d.take 4 = Bytes.be 4 protocolId.toNat ∧ t = PacketType.ofByte (d.getD 4 0) := by
  constructor
  · intro h
    obtain ⟨hlen, hs, htype⟩ := hmacType_ne_invalid (h.symm ▸ ht : hmacType C k d ≠ .invalidPacket)
    refine ⟨hlen, hs, ?_, h ▸ htype⟩
    rw [← id_iff (by omega)]
    by_contra hid
    rw [← mac_iff] at hs
    rw [hmacType, if_neg (by omega), if_neg (by simp [hs]), if_pos hid] at h
    exact ht h.symm
  · rintro ⟨hlen, hs, hid, rfl⟩
    rw [← mac_iff] at hs
    rw [← id_iff (by omega)] at hid
    rw [hmacType, if_neg (by omega), if_neg (by simp [hs]), if_neg (by simp [hid])]

/-- What lies before the last 32 bytes is all there is to authenticate. -/
theorem authentic_iff (ht : t ≠ .invalidPacket) :
    (∃ m, Authentic C k d t m) ↔ minimumHeaderSize + hmacSize ≤ d.length ∧ hmacType C k d = t := by
  rw [hmacType_eq_iff ht]
  constructor
  · rintro ⟨m, hmac, hlen, hid, byte, hbyte, -, rfl⟩
    have hl : d.length = m.length + 32 := by rw [hmac]; exact length_sealed C k m
    have htake : d.take (d.length - 32) = m := by
      rw [hl, Nat.add_sub_cancel, hmac, List.take_left]
    rw [minimumHeaderSize] at hlen
    refine ⟨by rw [minimumHeaderSize, hmacSize]; omega, by omega, by rw [htake]; exact hmac, ?_, ?_⟩
    · rw [hmac, List.take_append_of_le_length (by omega), hid]
    · rw [hmac, List.getD_eq_getElem?_getD, List.getElem?_append_left (by omega), hbyte]
      rfl
  · rintro ⟨hlong, hlen, hs, hid, rfl⟩
    rw [minimumHeaderSize, hmacSize] at hlong
    have h4 : (d.take (d.length - 32))[4]? = some (d.getD 4 0) := by
      rw [List.getElem?_take_of_lt (by omega), List.getElem?_eq_getElem (by omega),
        List.getD_eq_getElem d 0 (by omega)]
    refine ⟨d.take (d.length - 32), hs, ?_, ?_, d.getD 4 0, h4, ofByte_ne_invalid.mp ht, rfl⟩
    · rw [List.length_take_of_le (by omega), minimumHeaderSize]
      omega
    · rw [List.take_take, Nat.min_eq_left (by omega), hid]

theorem Incoming.view (hb : Incoming b) (h : 0 ≤ b.size) :
    b = view (covered b) (b.data.drop b.size.toNat) 0 ∧ (covered b).length < 2 ^ 31 := by
  have hsize := hb.size
  have hlt := hb.size_lt
  have hlen : (covered b).length = b.size.toNat := List.length_take_of_le (by omega)
  constructor
  · cases b with
    | mk data size index =>
      obtain rfl : index = 0 := hb.index
      simp only [Buffer.view, covered, List.take_append_drop]
      simp only [covered] at hlen
      rw [hlen, Int.toNat_of_nonneg h]
  · omega

/-- The verification of a received buffer looks at the bytes its size counts. -/
theorem verify_incoming (hb : Incoming b) (ht : t ≠ .invalidPacket) :
    (∃ b', (verifyPacketHMAC C k).run b = .ok t b') ↔ hmacType C k (covered b) = t := by
  by_cases h : 0 ≤ b.size
  · obtain ⟨hview, hd⟩ := hb.view h
    obtain ⟨i, hv, -⟩ := verifyPacketHMAC_view (C := C) (k := k)
      (r := b.data.drop b.size.toNat) hd
    rw [← hview] at hv
    rw [hv]
    constructor
    · rintro ⟨b', he⟩
      cases he
      rfl
    · intro he
      exact ⟨_, by rw [he]⟩
  · have hnil : covered b = [] := by
      rw [covered, Int.toNat_of_nonpos (by omega), List.take_zero]
    have hsmall := verifyPacketHMAC_small (C := C) (k := k) (b := b) (by simp [hmacSize]; omega)
    rw [hsmall, hnil]
    refine iff_of_false ?_ ?_
    · rintro ⟨b', he⟩
      cases he
      exact ht rfl
    · intro he
      exact ht (by rw [← he]; rfl)

/-- The header is authenticated on every buffer but those whose last 32 bytes are the HMAC of a
message too short for one. -/
theorem covers_header_iff (C : Crypto) (k : ShortSharedKey) (hb : Incoming b) :
    CoversHeader C k b ↔ ¬ Straddles C k (covered b) := by
  unfold CoversHeader
  constructor
  · intro h hs
    have ht := ofByte_ne_invalid.mpr hs.type
    have hmac := hs.mac
    have hlong := hs.longer
    rw [hmacSize] at hmac hlong
    have hv := (verify_incoming hb ht).mpr
      ((hmacType_eq_iff (C := C) (k := k) ht).mpr ⟨hlong, hmac, hs.id, rfl⟩)
    have hlen := ((authentic_iff ht).mp ((h _ ht).mp hv)).1
    have := hs.shorter
    omega
  · intro hs t ht
    rw [verify_incoming hb ht, authentic_iff ht]
    constructor
    · intro h
      refine ⟨?_, h⟩
      by_contra hshort
      obtain ⟨hlen, hmac, hid, rfl⟩ := (hmacType_eq_iff ht).mp h
      exact hs ⟨hlen, by omega, hmac, hid, ofByte_ne_invalid.mp ht⟩
    · exact fun h => h.2

/-- A `DISCONNECT` is as short as an authentic datagram can be. -/
theorem covers_header_sample :
    CoversHeader sample sampleShared (view (sealed sample sampleShared (header .disconnect)) [] 0) := by
  have hb : Incoming (view (sealed sample sampleShared (header .disconnect)) [] 0) :=
    ⟨rfl, by simp, by simp [length_sealed]⟩
  refine (covers_header_iff sample sampleShared hb).mpr fun h => ?_
  have hshort := h.shorter
  simp [covered, length_sealed, minimumHeaderSize, hmacSize] at hshort

/-- The end of the protocol id, a type and 28 more bytes. -/
def tailMac : List UInt8 := (Bytes.be 4 protocolId.toNat).drop 1 ++ [5] ++ List.replicate 28 0

theorem length_tailMac : tailMac.length = 32 := by simp [tailMac]

/-- An instance with that for every MAC. -/
def sampleTail : Crypto := { sample with hmacSha256 := fun _ _ => ⟨tailMac, length_tailMac⟩ }

/-- A message of one byte, whose MAC gives it a protocol id and a type. -/
theorem header_from_mac :
    ¬ ∀ (C : Crypto) (k : ShortSharedKey) (b : Buffer), Incoming b → CoversHeader C k b := by
  intro h
  have hb : Incoming (view ((Bytes.be 4 protocolId.toNat).take 1 ++ tailMac) [] 0) :=
    ⟨rfl, by simp, by simp [length_tailMac]⟩
  have hv := (verify_incoming (C := sampleTail) (k := 0) (t := .connectionData) hb (by simp)).mpr
    (by decide +kernel)
  have ha := (h sampleTail 0 _ hb .connectionData (by simp)).mp hv
  have hlen := ((authentic_iff (by simp)).mp ha).1
  exact absurd hlen (by decide +kernel)

variable {rest : List UInt8} {packet : ConnectionDataPacket}

theorem load_length {n : Nat} {bs : List UInt8} (h : (load n).run b = .ok bs b') :
    bs.length = n := by
  rw [load, ok_bind (EStateM.run_get _)] at h
  split at h
  · rw [ok_bind (EStateM.run_set _ _)] at h
    cases h
    rw [List.length_take_of_le]
    rw [List.length_drop]
    omega
  · cases h

theorem readBytes_length {n : Nat} {bs : List UInt8} (h : (readBytes n).run b = .ok bs b') :
    bs.length = n := by
  induction n generalizing b bs b' with
  | zero => cases h; rfl
  | succ n ih =>
    obtain ⟨x, c, hx, h⟩ := bind_ok h
    obtain ⟨y, c', hy, h⟩ := bind_ok h
    cases h
    rw [List.length_append, load_length hx, ih hy, Nat.add_comm]

/-- A game-data packet that was read has the fields of its datagram, and as many payload bytes
as it claims. -/
theorem data_read_fields (hd : d.length < 2 ^ 31) (h11 : 11 ≤ d.length)
    (h : ConnectionDataPacket.read.run (view d rest 5) = .ok packet b') :
    packet.sequence = sequenceOf d ∧ packet.gameDataSize = gameDataSizeOf d ∧
      packet.gameData.length = (gameDataSizeOf d).toNat ∧
      (11 + (gameDataSizeOf d).toNat ≤ d.length → packet.gameData = gameDataOf d) := by
  rw [data_read_head hd h11] at h
  obtain ⟨g, c, hg, h⟩ := bind_ok h
  cases h
  refine ⟨rfl, rfl, ?_, ?_⟩
  · obtain ⟨u, c', -, hb⟩ := bind_ok hg
    exact readBytes_length hb
  · intro hin
    rw [readBuffer_view hd hin] at hg
    cases hg
    rfl

/-- What lies before the end of the claimed payload is the message it is read as. -/
theorem take_dataMessage (hid : d.take 4 = Bytes.be 4 protocolId.toNat) (htype : d.getD 4 0 = 5)
    (h : 11 + (gameDataSizeOf d).toNat ≤ d.length) :
    d.take (11 + (gameDataSizeOf d).toNat) = dataMessage (sequenceOf d) (gameDataOf d) := by
  have h1 : (d.drop 4).take 1 = [5] := by
    rw [List.drop_eq_getElem_cons (by omega), List.take_succ_cons, List.take_zero, ← htype,
      List.getD_eq_getElem d 0 (by omega)]
  have h2 : (d.drop 5).take 2 = Bytes.be 2 (sequenceOf d).toNat :=
    (Bytes.be_uint16_ofBe (List.length_take_of_le (by rw [List.length_drop]; omega))).symm
  have h4 : (d.drop 7).take 4 = Bytes.be 4 (gameDataSizeOf d).toNat :=
    (Bytes.be_uint32_ofBe (List.length_take_of_le (by rw [List.length_drop]; omega))).symm
  have hlen : (gameDataOf d).length = (gameDataSizeOf d).toNat :=
    List.length_take_of_le (by rw [List.length_drop]; omega)
  calc d.take (11 + (gameDataSizeOf d).toNat)
      = d.take 4 ++ (d.drop 4).take 1 ++ (d.drop 5).take 2 ++ (d.drop 7).take 4 ++
          gameDataOf d := by
        rw [gameDataOf, ← List.take_add, ← List.take_add, ← List.take_add, ← List.take_add]
    _ = dataMessage (sequenceOf d) (gameDataOf d) := by
        rw [hid, h1, h2, h4, dataMessage, header, hlen]
        simp [PacketType.toByte]

theorem ofByte_connectionData {byte : UInt8} (h : PacketType.ofByte byte = .connectionData) :
    byte = 5 := by
  unfold PacketType.ofByte at h
  split at h
  case h_6 => rfl
  all_goals cases h

/-- Game data that fills its datagram is one that was written. -/
theorem accepted_data_sealed (ht : hmacType C k d = .connectionData)
    (h : 43 + (gameDataSizeOf d).toNat = d.length) :
    d = sealed C k (dataMessage (sequenceOf d) (gameDataOf d)) := by
  obtain ⟨hlen, hs, hid, htype⟩ := (hmacType_eq_iff (by simp)).mp ht
  have hbyte := ofByte_connectionData htype.symm
  have hsub : d.length - 32 = 11 + (gameDataSizeOf d).toNat := by omega
  rwa [hsub, take_dataMessage hid hbyte (by omega)] at hs

/-- Writing the fields of an accepted packet gives its datagram back exactly when the payload it
claims fills the message. -/
theorem rewritten_iff (C : Crypto) (k : ShortSharedKey) {b c c' : Buffer} (hb : Incoming b)
    (hv : (verifyPacketHMAC C k).run b = .ok .connectionData c)
    (hr : ConnectionDataPacket.read.run c = .ok packet c') :
    written (packet.write C k) = .ok (covered b) ↔
      connectionDataPacketSize + packet.gameDataSize.toNat + hmacSize = (covered b).length := by
  have hpos : 0 ≤ b.size := by
    by_contra hneg
    rw [verifyPacketHMAC_small (by simp [hmacSize]; omega)] at hv
    cases hv
  obtain ⟨hview, hd⟩ := hb.view hpos
  obtain ⟨i, hw, hi⟩ := verifyPacketHMAC_view (C := C) (k := k)
    (r := b.data.drop b.size.toNat) hd
  rw [← hview, hv] at hw
  obtain ⟨ht, rfl⟩ := EStateM.Result.ok.inj hw
  rw [hi (by rw [← ht]; simp)] at hr
  have hlen := (hmacType_ne_invalid (by rw [← ht]; simp)).1
  obtain ⟨hseq, hsize, hdata, hin⟩ := data_read_fields hd (by omega) hr
  have hlt := (gameDataSizeOf (covered b)).toNat_lt
  obtain ⟨sequence, size, gameData⟩ := packet
  dsimp only at hseq hsize hdata hin ⊢
  subst hseq hsize
  obtain ⟨data, rfl⟩ : ∃ data : GameData, gameData = data.bytes := ⟨⟨gameData, by omega⟩, rfl⟩
  have hof : gameDataSizeOf (covered b) = UInt32.ofNat data.bytes.length := by
    rw [hdata, UInt32.ofNat_toNat]
  rw [← hdata, hof, connectionDataPacketSize, minimumHeaderSize, hmacSize]
  constructor
  · intro h
    rw [written_data C h, length_sealed, length_dataMessage]
  · intro h
    have hfill : 43 + (gameDataSizeOf (covered b)).toNat = (covered b).length := by omega
    have hsealed := accepted_data_sealed ht.symm hfill
    rw [written_connectionData C k _ (by omega), hin (by omega), ← hsealed]

theorem rewritten_sample :
    written (ConnectionDataPacket.write sample ⟨1, 1, [7]⟩ sampleShared) =
      .ok (covered (view (sealed sample sampleShared (dataMessage 1 [7])) [] 0)) := by
  obtain ⟨hv, i, hr⟩ := received_data sample sampleShared 1
    (show 43 + ([7] : List UInt8).length < 2 ^ 31 by decide) []
  have hb : Incoming (view (sealed sample sampleShared (dataMessage 1 [7])) [] 0) :=
    ⟨rfl, by simp, by simp [length_sealed, length_dataMessage]⟩
  exact (rewritten_iff sample sampleShared hb hv hr).mpr (by decide +kernel)

/-- A packet with one byte behind a payload of none. -/
def slack : List UInt8 := header .connectionData ++ (Bytes.be 2 1 ++ (Bytes.be 4 0 ++ [7]))

theorem slack_received :
    Received sample 0 .connectionData (sealed sample 0 slack) ConnectionDataPacket.read ⟨1, 0, []⟩ := by
  have hlen : (sealed sample 0 slack).length = 44 := by simp [length_sealed, slack]
  have hbody : (sealed sample 0 slack).drop 5 = Bytes.be 2 (1 : UInt16).toNat ++
      (Bytes.be 4 ([] : List UInt8).length ++ ([] ++ ([7] ++ (sample.hmacSha256 0 slack).bytes))) := by
    rw [sealed, slack, List.append_assoc, List.drop_left' (length_header _)]
    simp
  exact received_sealed rfl (by decide) (by simp) fun rest =>
    ⟨_, data_read_view rest (by rw [hlen]; decide) hbody⟩

/-- The byte is accepted with the packet and lost when it is written back. -/
theorem slack_not_rewritten :
    ¬ ∀ (C : Crypto) (k : ShortSharedKey) (b c c' : Buffer) (packet : ConnectionDataPacket),
      Incoming b → (verifyPacketHMAC C k).run b = .ok .connectionData c →
      ConnectionDataPacket.read.run c = .ok packet c' →
      written (packet.write C k) = .ok (covered b) := by
  intro h
  obtain ⟨hv, i, hr⟩ := slack_received []
  have hb : Incoming (view (sealed sample 0 slack) [] 0) := ⟨rfl, by simp, by simp [length_sealed, slack]⟩
  have hw := h sample 0 _ _ _ _ hb hv hr
  have hown := written_connectionData sample 0 1 (show 43 + ([] : List UInt8).length < 2 ^ 31 by decide)
  have hlen := congrArg (Except.map List.length) (hown.symm.trans hw)
  simp [Except.map, covered, length_sealed, length_dataMessage, slack] at hlen

end GameNetwork.Proofs
