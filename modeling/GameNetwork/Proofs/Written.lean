import GameNetwork.Packet
import GameNetwork.Socket

namespace GameNetwork.Proofs
open Buffer

/-- The first five bytes of every packet that is authenticated with a key. -/
def header (t : PacketType) : List UInt8 := Bytes.be 4 protocolId.toNat ++ [t.toByte]

/-- A message followed by its HMAC. -/
def sealed (C : Crypto) (k : ShortSharedKey) (message : List UInt8) : List UInt8 :=
  message ++ (C.hmacSha256 k message).bytes

/-- A handshake packet: its CRC in the place of the protocol id, then type and key. -/
def checked (t : PacketType) (key : List UInt8) : List UInt8 :=
  Bytes.be 4 (CRC32.getCRCTableBased (header t ++ key)).toNat ++ t.toByte :: key

/-- The body of a game-data packet up to its HMAC. -/
def dataMessage (sequence : UInt16) (gameData : List UInt8) : List UInt8 :=
  header .connectionData ++ (Bytes.be 2 sequence.toNat ++ (Bytes.be 4 gameData.length ++ gameData))

@[simp] theorem length_header (t : PacketType) : (header t).length = 5 := by simp [header]

theorem length_sealed (C : Crypto) (k : ShortSharedKey) (message : List UInt8) :
    (sealed C k message).length = message.length + 32 := by
  simp [sealed, Digest.length_eq]

theorem length_checked (t : PacketType) (key : List UInt8) :
    (checked t key).length = 5 + key.length := by
  simp [checked]; omega

theorem length_dataMessage (sequence : UInt16) (gameData : List UInt8) :
    (dataMessage sequence gameData).length = 11 + gameData.length := by
  simp [dataMessage]; omega

/-- A freshly allocated buffer of which the bytes `pre` are written and `m` are left. -/
def filling (pre : List UInt8) (m : Nat) : Buffer :=
  view (pre ++ List.replicate m 0) [] pre.length

theorem replicate_split {m n k : Nat} (h : m = n + k) :
    (List.replicate m (0 : UInt8)) = List.replicate n 0 ++ List.replicate k 0 := by
  rw [h, List.replicate_append_replicate]

theorem filling_init {n : Nat} (hn : 0 < n) (hu : n < 2 ^ 31) :
    (init n).run {} = .ok () (filling [] n) := init_empty hn hu

theorem filling_writeInteger {pre : List UInt8} {m k : Nat} (v : UInt32) (hm : m = 4 + k)
    (hu : pre.length + m < 2 ^ 31) :
    (writeInteger v).run (filling pre m) = .ok () (filling (pre ++ Bytes.be 4 v.toNat) k) := by
  have h := writeInteger_view (p := pre) (o := List.replicate 4 0)
    (q := List.replicate k 0) (r := []) v (by simp; omega) (by simp)
  rw [filling, replicate_split hm, ← List.append_assoc, h, filling]
  simp

theorem filling_writeShort {pre : List UInt8} {m k : Nat} (v : UInt16) (hm : m = 2 + k)
    (hu : pre.length + m < 2 ^ 31) :
    (writeShort v).run (filling pre m) = .ok () (filling (pre ++ Bytes.be 2 v.toNat) k) := by
  have h := writeShort_view (p := pre) (o := List.replicate 2 0)
    (q := List.replicate k 0) (r := []) v (by simp; omega) (by simp)
  rw [filling, replicate_split hm, ← List.append_assoc, h, filling]
  simp

theorem filling_writeByte {pre : List UInt8} {m k : Nat} (v : UInt8) (hm : m = 1 + k)
    (hu : pre.length + m < 2 ^ 31) :
    (writeByte v).run (filling pre m) = .ok () (filling (pre ++ [v]) k) := by
  have h := writeByte_view (p := pre) (o := List.replicate 1 0)
    (q := List.replicate k 0) (r := []) v (by simp; omega) (by simp)
  rw [filling, replicate_split hm, ← List.append_assoc, h, filling]
  simp

theorem filling_writeBuffer {pre bs : List UInt8} {m k : Nat} (hm : m = bs.length + k)
    (hu : pre.length + m < 2 ^ 31) :
    (writeBuffer bs).run (filling pre m) = .ok () (filling (pre ++ bs) k) := by
  have h := writeBuffer_view (p := pre) (o := List.replicate bs.length 0) (w := bs)
    (q := List.replicate k 0) (r := []) (by simp; omega) (by simp)
  rw [filling, replicate_split hm, ← List.append_assoc, h, filling]
  simp

/-- Every packet begins with the protocol id and its type. -/
theorem filling_header {n k : Nat} (t : PacketType) (hn : n = 5 + k) (hu : n < 2 ^ 31)
    (rest : BufferM Unit) :
    (do init n; writeInteger protocolId; writeByte t.toByte; rest : BufferM Unit).run {} =
      rest.run (filling (header t) k) := by
  rw [ok_bind (filling_init (by omega) hu),
    ok_bind (filling_writeInteger (k := 1 + k) protocolId (by omega) (by simpa using hu)),
    ok_bind (filling_writeByte (k := k) t.toByte rfl (by simp; omega))]
  rfl

/-- A buffer filled to its end hands all its bytes to `Send`. -/
theorem written_filled {write : BufferM Unit} {full : List UInt8}
    (h : write.run {} = .ok () (filling full 0)) : written write = .ok full := by
  simp [written, h, filling, view]

/-- The last step of the authenticated writers: the HMAC of what is written so far. -/
theorem filling_seal (C : Crypto) (k : ShortSharedKey) (message : List UInt8)
    (hu : message.length + 32 < 2 ^ 31) :
    (do
      let b ← get
      writeBuffer (C.hmacSha256 k (b.data.take message.length)).bytes : BufferM Unit).run
        (filling message 32) = .ok () (filling (sealed C k message) 0) := by
  have ht : (filling message 32).data.take message.length = message := by
    simp [filling]
  rw [ok_bind (EStateM.run_get _), ht]
  exact filling_writeBuffer (k := 0) (Digest.length_eq _).symm hu

/-- The last step of the CRC writers: the CRC replaces the protocol id it was computed with. -/
theorem filling_check (t : PacketType) (key : List UInt8) (hu : 5 + key.length < 2 ^ 31) :
    (do
      let b ← get
      rewind
      writeInteger (CRC32.getCRCTableBased (b.data.take (5 + key.length))) : BufferM Unit).run
        (filling (header t ++ key) 0) = .ok () (view (checked t key) [] 4) := by
  have hlen : (header t ++ key).length = 5 + key.length := by simp
  have ht : (filling (header t ++ key) 0).data.take (5 + key.length) = header t ++ key := by
    rw [← hlen, filling, view_data, List.replicate_zero, List.append_nil, List.append_nil,
      List.take_length]
  have hr : rewind.run (filling (header t ++ key) 0) = .ok () (view (header t ++ key) [] 0) := by
    simp only [filling, List.replicate_zero, List.append_nil]
    rfl
  have hv := writeInteger_view (p := []) (o := Bytes.be 4 protocolId.toNat)
    (q := t.toByte :: key) (r := []) (CRC32.getCRCTableBased (header t ++ key))
    (by simp; omega) (by simp)
  rw [ok_bind (EStateM.run_get _), ok_bind hr, ht]
  simpa [header, checked] using hv

section
variable {C : Crypto} (hC : 5 + C.roundedPublicKeySize < 2 ^ 31)
include hC

theorem written_connectionRequest (p : ConnectionRequestPacket C) :
    written p.write = .ok (checked .connectionRequest p.clientPublicKey.bytes) := by
  have hk := Crypto.length_public_key p.clientPublicKey
  have hf := filling_check .connectionRequest p.clientPublicKey.bytes (by omega)
  rw [hk] at hf
  have h : p.write.run {} =
      .ok () (view (checked .connectionRequest p.clientPublicKey.bytes) [] 4) := by
    rw [ConnectionRequestPacket.write, filling_header (n := connectionRequestPacketSize C) _ rfl hC,
      ok_bind (filling_writeBuffer (k := 0) hk.symm (by simpa using hC))]
    exact hf
  simp [written, h, view]

theorem written_challenge (p : ChallengePacket C) :
    written p.write = .ok (checked .challenge p.serverPublicKey.bytes) := by
  have hk := Crypto.length_public_key p.serverPublicKey
  have hf := filling_check .challenge p.serverPublicKey.bytes (by omega)
  rw [hk] at hf
  have h : p.write.run {} =
      .ok () (view (checked .challenge p.serverPublicKey.bytes) [] 4) := by
    rw [ChallengePacket.write, filling_header (n := challengePacketSize C) _ rfl hC,
      ok_bind (filling_writeBuffer (k := 0) hk.symm (by simpa using hC))]
    exact hf
  simp [written, h, view]

end

variable (C : Crypto) (k : ShortSharedKey)

theorem filled_challengeResponse : (ChallengeResponsePacket.write C k).run {} =
    .ok () (filling (sealed C k (header .challengeResponse)) 0) := by
  have hf := filling_seal C k (header .challengeResponse) (by simp)
  rw [ChallengeResponsePacket.write,
    filling_header (n := challengeResponsePacketSize + hmacSize) (k := 32) _ rfl (by decide)]
  rw [length_header] at hf
  exact hf

theorem filled_disconnect : (DisconnectPacket.write C k).run {} =
    .ok () (filling (sealed C k (header .disconnect)) 0) := by
  have hf := filling_seal C k (header .disconnect) (by simp)
  rw [DisconnectPacket.write,
    filling_header (n := disconnectPacketSize + hmacSize) (k := 32) _ rfl (by decide)]
  rw [length_header] at hf
  exact hf

theorem filled_connectionAccepted (p : ConnectionAcceptedPacket) : (p.write C k).run {} =
    .ok () (filling (sealed C k (header .connectionAccepted ++ Bytes.be 4 p.clientID.toNat)) 0) := by
  have hf := filling_seal C k (header .connectionAccepted ++ Bytes.be 4 p.clientID.toNat)
    (by simp)
  rw [ConnectionAcceptedPacket.write,
    filling_header (n := connectionAcceptedPacketSize + hmacSize) (k := 36) _ rfl (by decide),
    ok_bind (filling_writeInteger (k := 32) _ rfl (by simp))]
  simpa [connectionAcceptedPacketSize, minimumHeaderSize] using hf

theorem filled_connectionData (sequence : UInt16) {gameData : List UInt8}
    (hu : 43 + gameData.length < 2 ^ 31) :
    (ConnectionDataPacket.write C ⟨sequence, UInt32.ofNat gameData.length, gameData⟩ k).run {} =
      .ok () (filling (sealed C k (dataMessage sequence gameData)) 0) := by
  have hsize : (UInt32.ofNat gameData.length).toNat = gameData.length := by
    rw [UInt32.toNat_ofNat']; omega
  have hmsg := length_dataMessage sequence gameData
  have hf := filling_seal C k (dataMessage sequence gameData) (by omega)
  have hw : uint32 ((11 : Int) + gameData.length) = 11 + gameData.length := by
    rw [uint32_eq] <;> omega
  rw [ConnectionDataPacket.write, hsize, connectionDataPacketSize, minimumHeaderSize, hmacSize,
    filling_header (k := 2 + (4 + (gameData.length + 32))) _ (by omega) (by omega),
    ok_bind (filling_writeShort (k := 4 + (gameData.length + 32)) _ rfl (by simp; omega)),
    ok_bind (filling_writeInteger (k := gameData.length + 32) _ rfl (by simp; omega)),
    List.take_length,
    ok_bind (filling_writeBuffer (k := 32) rfl (by simp; omega)), hsize]
  rw [hmsg] at hf
  simpa [dataMessage, hw] using hf

theorem written_challengeResponse :
    written (ChallengeResponsePacket.write C k) =
      .ok (sealed C k (header .challengeResponse)) :=
  written_filled (filled_challengeResponse C k)

theorem written_disconnect :
    written (DisconnectPacket.write C k) = .ok (sealed C k (header .disconnect)) :=
  written_filled (filled_disconnect C k)

theorem written_connectionAccepted (p : ConnectionAcceptedPacket) :
    written (p.write C k) =
      .ok (sealed C k (header .connectionAccepted ++ Bytes.be 4 p.clientID.toNat)) :=
  written_filled (filled_connectionAccepted C k p)

/-- A game-data packet is written whole as long as its size stays an `int`. -/
theorem written_connectionData (sequence : UInt16) {gameData : List UInt8}
    (hu : 43 + gameData.length < 2 ^ 31) :
    written (ConnectionDataPacket.write C
        ⟨sequence, UInt32.ofNat gameData.length, gameData⟩ k) =
      .ok (sealed C k (dataMessage sequence gameData)) :=
  written_filled (filled_connectionData C k sequence hu)

end GameNetwork.Proofs
