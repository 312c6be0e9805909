import GameNetwork.Proofs.Ideal
import GameNetwork.Proofs.Body

namespace GameNetwork.Proofs
open Buffer

variable {α : Type} {C : Crypto} {k : ShortSharedKey} {t : PacketType} {write : BufferM Unit}
  {read : BufferM α} {packet : α} {bs : List UInt8}

/-- Whatever lies behind the bytes in the buffer of the receiver, they verify as `t` under the
key, which leaves the read position at the body, and reading gives the packet. -/
def Received (C : Crypto) (k : ShortSharedKey) (t : PacketType) (bytes : List UInt8)
    (read : BufferM α) (packet : α) : Prop :=
  ∀ rest, (verifyPacketHMAC C k).run (view bytes rest 0) = .ok t (view bytes rest 5) ∧
    ∃ i, read.run (view bytes rest 5) = .ok packet (view bytes rest i)

/-- The writer fills its fresh buffer exactly, and the packet is received as it was. -/
def RoundTrip (C : Crypto) (k : ShortSharedKey) (t : PacketType) (write : BufferM Unit)
    (read : BufferM α) (packet : α) : Prop :=
  ∃ bytes, write.run {} = .ok () { data := bytes, size := bytes.length, index := bytes.length } ∧
    Received C k t bytes read packet

/-- What is sealed verifies as its type, so only the reader differs. -/
theorem received_sealed (ht : PacketType.ofByte t.toByte = t) (hne : t ≠ .invalidPacket)
    (hu : 37 + bs.length < 2 ^ 31)
    (hr : ∀ rest, ∃ i, read.run (view (sealed C k (header t ++ bs)) rest 5) =
      .ok packet (view (sealed C k (header t ++ bs)) rest i)) :
    Received C k t (sealed C k (header t ++ bs)) read packet := by
  have hlen : (sealed C k (header t ++ bs)).length < 2 ^ 31 := by
    rw [length_sealed, List.length_append, length_header]
    omega
  have htype : hmacType C k (sealed C k (header t ++ bs)) = t := by rw [hmacType_sealed, ht]
  intro rest
  obtain ⟨i, hv, hi⟩ := verifyPacketHMAC_view (C := C) (k := k) (r := rest) hlen
  rw [hi (by rwa [htype]), htype] at hv
  exact ⟨hv, hr rest⟩

theorem received_header (ht : PacketType.ofByte t.toByte = t) (hne : t ≠ .invalidPacket) :
    Received C k t (sealed C k (header t)) (pure () : BufferM Unit) () := by
  rw [← List.append_nil (header t)]
  exact received_sealed ht hne (by simp) fun rest => ⟨5, rfl⟩

theorem received_data (C : Crypto) (k : ShortSharedKey) (sequence : UInt16)
    {gameData : List UInt8} (hu : 43 + gameData.length < 2 ^ 31) :
    Received C k .connectionData (sealed C k (dataMessage sequence gameData))
      ConnectionDataPacket.read ⟨sequence, UInt32.ofNat gameData.length, gameData⟩ := by
  have hlen := length_sealed C k (dataMessage sequence gameData)
  rw [length_dataMessage] at hlen
  have hr (rest : List UInt8) := data_read_view rest (by omega)
    (drop_dataMessage (C := C) k sequence gameData)
  exact received_sealed rfl (by decide) (by simp; omega) fun rest => ⟨_, hr rest⟩

/-- A buffer filled to its end stands there. -/
theorem roundTrip_filled (hw : write.run {} = .ok () (filling bs 0))
    (h : Received C k t bs read packet) : RoundTrip C k t write read packet := by
  refine ⟨bs, ?_, h⟩
  rw [hw]
  simp [filling, view]

theorem accepted_read_view (p : ConnectionAcceptedPacket) (rest : List UInt8) :
    ∃ i, ConnectionAcceptedPacket.read.run
        (view (sealed C k (header .connectionAccepted ++ Bytes.be 4 p.clientID.toNat)) rest 5) =
      .ok p (view (sealed C k (header .connectionAccepted ++ Bytes.be 4 p.clientID.toNat))
        rest i) := by
  have hlen := length_sealed C k (header .connectionAccepted ++ Bytes.be 4 p.clientID.toNat)
  rw [List.length_append, length_header, Bytes.length_be] at hlen
  have hr := readInteger_view (r := rest) (i := 5)
    (d := sealed C k (header .connectionAccepted ++ Bytes.be 4 p.clientID.toNat))
    (by omega) (by omega)
  have hbody : ((sealed C k (header .connectionAccepted ++ Bytes.be 4 p.clientID.toNat)).drop
      5).take 4 = Bytes.be 4 p.clientID.toNat := by
    rw [sealed, List.append_assoc, List.drop_left' (length_header _),
      List.take_left' (Bytes.length_be _ _)]
  rw [hbody, Bytes.uint32_ofBe_be] at hr
  exact ⟨9, by rw [ConnectionAcceptedPacket.read, ok_bind hr]; rfl⟩

/-- Each of the four authenticated packets survives the wire, whatever its fields. -/
theorem authenticated_round_trip (C : Crypto) (k : ShortSharedKey) :
    RoundTrip C k .challengeResponse (ChallengeResponsePacket.write C k)
        ChallengeResponsePacket.read () ∧
      (∀ p : ConnectionAcceptedPacket,
        RoundTrip C k .connectionAccepted (p.write C k) ConnectionAcceptedPacket.read p) ∧
      (∀ (sequence : UInt16) (gameData : List UInt8), 43 + gameData.length < 2 ^ 31 →
        RoundTrip C k .connectionData
          (ConnectionDataPacket.write C ⟨sequence, UInt32.ofNat gameData.length, gameData⟩ k)
          ConnectionDataPacket.read ⟨sequence, UInt32.ofNat gameData.length, gameData⟩) ∧
      RoundTrip C k .disconnect (DisconnectPacket.write C k) DisconnectPacket.read () := by
  refine ⟨?_, ?_, ?_, ?_⟩
  · exact roundTrip_filled (filled_challengeResponse C k) (received_header rfl (by decide))
  · intro p
    exact roundTrip_filled (filled_connectionAccepted C k p)
      (received_sealed rfl (by decide) (by simp) (accepted_read_view p))
  · intro sequence gameData hu
    exact roundTrip_filled (filled_connectionData C k sequence hu)
      (received_data C k sequence hu)
  · exact roundTrip_filled (filled_disconnect C k) (received_header rfl (by decide))

theorem authenticated_round_trip_sample :
    RoundTrip sample sampleShared .connectionData
      (ConnectionDataPacket.write sample ⟨65535, 2, [7, 8]⟩ sampleShared)
      ConnectionDataPacket.read ⟨65535, 2, [7, 8]⟩ :=
  (authenticated_round_trip sample sampleShared).2.2.1 65535 [7, 8] (by decide)

/-- The writer's bytes verify by their CRC as `t`, whatever lies behind them in the buffer of the
receiver. This leaves the read position at the key, with the protocol id in place of the CRC,
and reading gives the packet. -/
def CheckedTrip (t : PacketType) (write : BufferM Unit) (read : BufferM α) (packet : α) : Prop :=
  ∃ bytes, written write = .ok bytes ∧ ∀ rest,
    verifyPacketCRC.run (view bytes rest 0) = .ok t (view (patched bytes) rest 5) ∧
    ∃ i, read.run (view (patched bytes) rest 5) = .ok packet (view (patched bytes) rest i)

theorem checked_verified (ht : PacketType.ofByte t.toByte = t) (hne : t ≠ .invalidPacket)
    (key : List UInt8) (hu : 5 + key.length < 2 ^ 31) (rest : List UInt8) :
    verifyPacketCRC.run (view (checked t key) rest 0) =
      .ok t (view (patched (checked t key)) rest 5) := by
  have hlen : (checked t key).length < 2 ^ 31 := by rw [length_checked]; exact hu
  have htype : crcType (checked t key) = .ok t := by rw [crcType_checked, ht]
  obtain ⟨b, hv, hb⟩ := verifyPacketCRC_view (r := rest) hlen
  rw [htype] at hv
  rwa [hb t htype hne] at hv

theorem checked_key_read (t : PacketType) (key : C.PublicKey)
    (hu : 5 + C.roundedPublicKeySize < 2 ^ 31) (rest : List UInt8) :
    ∃ i, (readBuffer C.roundedPublicKeySize).run (view (patched (checked t key.bytes)) rest 5) =
      .ok (((checked t key.bytes).drop 5).take C.roundedPublicKeySize)
        (view (patched (checked t key.bytes)) rest i) := by
  have hk := Crypto.length_public_key key
  have hlen := length_checked t key.bytes
  have hp : (patched (checked t key.bytes)).length = 5 + C.roundedPublicKeySize := by
    simp [patched, hlen, hk]
    omega
  have hdrop : (patched (checked t key.bytes)).drop 5 = (checked t key.bytes).drop 5 := by
    rw [patched, ← List.drop_drop (i := 1) (j := 4), List.drop_left' (Bytes.length_be _ _),
      List.drop_drop]
  have hr := readBuffer_view (r := rest) (i := 5) (n := C.roundedPublicKeySize)
    (d := patched (checked t key.bytes)) (by omega) (by omega)
  rw [hdrop] at hr
  exact ⟨_, hr⟩

/-- Both handshake packets survive the wire with any key, though each end puts its own four
bytes over the first four. -/
theorem handshake_round_trip (hC : 5 + C.roundedPublicKeySize < 2 ^ 31) (key : C.PublicKey) :
    CheckedTrip .connectionRequest (ConnectionRequestPacket.write ⟨key⟩)
        (ConnectionRequestPacket.read C) ⟨key⟩ ∧
      CheckedTrip .challenge (ChallengePacket.write ⟨key⟩) (ChallengePacket.read C) ⟨key⟩ := by
  have hu : 5 + key.bytes.length < 2 ^ 31 := by rwa [Crypto.length_public_key]
  constructor
  · refine ⟨_, written_connectionRequest hC ⟨key⟩, fun rest => ?_⟩
    obtain ⟨i, hr⟩ := checked_key_read .connectionRequest key hC rest
    refine ⟨checked_verified rfl (by decide) key.bytes hu rest, i, ?_⟩
    rw [ConnectionRequestPacket.read, ok_bind hr, ← keyOf, keyOf_checked]
    rfl
  · refine ⟨_, written_challenge hC ⟨key⟩, fun rest => ?_⟩
    obtain ⟨i, hr⟩ := checked_key_read .challenge key hC rest
    refine ⟨checked_verified rfl (by decide) key.bytes hu rest, i, ?_⟩
    rw [ChallengePacket.read, ok_bind hr, ← keyOf, keyOf_checked]
    rfl

theorem handshake_round_trip_sample :
    CheckedTrip .challenge (ChallengePacket.write (C := sample) ⟨sampleKey 3⟩)
      (ChallengePacket.read sample) ⟨sampleKey 3⟩ :=
  (handshake_round_trip (C := sample) (by decide) (sampleKey 3)).2

end GameNetwork.Proofs
