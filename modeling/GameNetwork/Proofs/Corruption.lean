import GameNetwork.Proofs.Crc
import GameNetwork.Proofs.Ideal
import GameNetwork.Proofs.Room
import GameNetwork.Proofs.Verified

namespace GameNetwork.Proofs
open Buffer

variable {C : Crypto} {d d' : List UInt8} {id : UInt32}

/-- The byte strings differ only inside one window of at most 32 consecutive bits, the bits of
each byte counted from its lowest. -/
def DifferInWindow (as bs : List UInt8) : Prop :=
  ∃ k, ∀ n, Crc.bitAt as n ≠ Crc.bitAt bs n → k ≤ n ∧ n < k + 32

/-- A datagram that `ConnectionRequestPacket::Write` or `ChallengePacket::Write` produces. -/
def HandshakePacket (C : Crypto) (d : List UInt8) : Prop :=
  (∃ p : ConnectionRequestPacket C, written p.write = .ok d) ∨
    ∃ p : ChallengePacket C, written p.write = .ok d

/-- The CRC computed with a protocol id in the place of the CRC. -/
def crcWith (id : UInt32) (d : List UInt8) : UInt32 :=
  CRC32.getCRCTableBased (Bytes.be 4 id.toNat ++ d.drop 4)

/-- The packet as a sender with another protocol id would have made it. -/
def restamped (id : UInt32) (d : List UInt8) : List UInt8 :=
  Bytes.be 4 (crcWith id d).toNat ++ d.drop 4

theorem crc_burst {as bs : List UInt8} (hl : as.length = bs.length) (hne : as ≠ bs)
    (hw : DifferInWindow as bs) : CRC32.getCRCTableBased as ≠ CRC32.getCRCTableBased bs := by
  obtain ⟨k, hk⟩ := hw
  intro h
  have hb := congrArg UInt32.toBitVec h
  rw [getCRCTableBased_bits, getCRCTableBased_bits, BitVec.not_inj] at hb
  exact Crc.bytes_burst (by decide) _ hl hne hk hb

/-- A handshake packet begins with the CRC that the rest of it asks for. -/
theorem HandshakePacket.framed (h : HandshakePacket C d) :
    5 ≤ d.length ∧ d.length < 2 ^ 31 ∧ d.take 4 = Bytes.be 4 (crcWith protocolId d).toNat := by
  have hchecked (t : PacketType) (key : C.PublicKey) (hC : 5 + C.roundedPublicKeySize < 2 ^ 31)
      (hd : d = checked t key.bytes) :
      5 ≤ d.length ∧ d.length < 2 ^ 31 ∧
        d.take 4 = Bytes.be 4 (crcWith protocolId d).toNat := by
    subst hd
    have hlen := length_checked t key.bytes
    rw [Crypto.length_public_key] at hlen
    have hdrop : (checked t key.bytes).drop 4 = t.toByte :: key.bytes :=
      List.drop_left' (Bytes.length_be _ _)
    refine ⟨by omega, by omega, ?_⟩
    rw [crcWith, hdrop, checked, List.take_left' (Bytes.length_be _ _), header, List.append_assoc,
      List.singleton_append]
  rcases h with ⟨p, h⟩ | ⟨p, h⟩
  · have hC := request_fits h
    rw [written_connectionRequest hC] at h
    exact hchecked .connectionRequest p.clientPublicKey hC (Except.ok.inj h).symm
  · have hC := challenge_fits h
    rw [written_challenge hC] at h
    exact hchecked .challenge p.serverPublicKey hC (Except.ok.inj h).symm

/-- A datagram that begins with another CRC is rejected. -/
theorem crc_rejected {r : List UInt8} (hl : 5 ≤ d.length) (hu : d.length < 2 ^ 31)
    (h : d.take 4 ≠ Bytes.be 4 (crcWith protocolId d).toNat) :
    ∃ b, verifyPacketCRC.run (view d r 0) = .ok .invalidPacket b := by
  have hlen : (d.take 4).length = 4 := by simp; omega
  have hlt : Bytes.ofBe (d.take 4) < 2 ^ 32 := by
    have := Bytes.ofBe_lt (d.take 4)
    rwa [hlen] at this
  have hback := Bytes.be_ofBe (d.take 4) 0
  rw [hlen, Nat.zero_mul, Nat.zero_add] at hback
  have hne : UInt32.ofNat (Bytes.ofBe (d.take 4)) ≠ crcWith protocolId d := by
    intro he
    apply h
    rw [← he, UInt32.toNat_ofNat', Nat.mod_eq_of_lt hlt, hback]
  have ht : crcType d = .ok .invalidPacket := by
    rw [crcType, if_neg (List.ne_nil_of_length_pos (by omega)), if_neg (by omega)]
    exact if_pos hne
  obtain ⟨b, hv, -⟩ := verifyPacketCRC_view (r := r) hu
  rw [ht] at hv
  exact ⟨b, hv⟩

/-- Any four neighbouring bytes lie in a window. -/
theorem differInWindow_bytes (pre as bs post : List UInt8) (hl : as.length = bs.length)
    (h4 : as.length ≤ 4) : DifferInWindow (pre ++ (as ++ post)) (pre ++ (bs ++ post)) := by
  refine ⟨8 * pre.length, fun n hn => ?_⟩
  rw [Crc.bitAt_append pre (as ++ post), Crc.bitAt_append pre (bs ++ post)] at hn
  split at hn
  · exact absurd rfl hn
  · rw [Crc.bitAt_append as, Crc.bitAt_append bs, hl] at hn
    split at hn
    · omega
    · exact absurd rfl hn

/-- A window in the bytes behind the CRC is a window of what the CRC is computed from. -/
theorem DifferInWindow.behind (pre : List UInt8) (hp : pre.length = 4) (hl : 4 ≤ d.length)
    (hs : d'.take 4 = d.take 4) (h : DifferInWindow d' d) :
    DifferInWindow (pre ++ d'.drop 4) (pre ++ d.drop 4) := by
  obtain ⟨k, hk⟩ := h
  have hlen : (d.take 4).length = 4 := by simp; omega
  refine ⟨k, fun n hn => hk n ?_⟩
  rw [← List.take_append_drop 4 d', ← List.take_append_drop 4 d, hs, Crc.bitAt_append,
    Crc.bitAt_append, hlen]
  rw [Crc.bitAt_append, Crc.bitAt_append, hp] at hn
  split at hn
  · exact absurd rfl hn
  · rename_i h32
    rwa [if_neg h32, if_neg h32]

/-- Windows of 32 bits cannot hide: neither from the CRC, nor in a handshake packet, nor as
another protocol id. -/
theorem crc_detects (C : Crypto) :
    (∀ as bs : List UInt8, as.length = bs.length → as ≠ bs → DifferInWindow as bs →
      CRC32.getCRCTableBased as ≠ CRC32.getCRCTableBased bs) ∧
    ∀ d, HandshakePacket C d →
      (∀ d' r, d'.length = d.length → d'.take 4 = d.take 4 → d' ≠ d → DifferInWindow d' d →
        ∃ b, verifyPacketCRC.run (view d' r 0) = .ok .invalidPacket b) ∧
      ∀ id r, id ≠ protocolId →
        ∃ b, verifyPacketCRC.run (view (restamped id d) r 0) = .ok .invalidPacket b := by
  refine ⟨fun as bs => crc_burst, fun d hd => ?_⟩
  obtain ⟨hl, hu, hcrc⟩ := hd.framed
  have hinj (a b : UInt32) (h : Bytes.be 4 a.toNat = Bytes.be 4 b.toNat) : a = b :=
    UInt32.toNat_inj.mp (Bytes.be_injective a.toNat_lt b.toNat_lt h)
  constructor
  · intro d' r hlen hs hne hw
    apply crc_rejected (by omega) (by omega)
    rw [hs, hcrc]
    intro h
    have hrest : d'.drop 4 ≠ d.drop 4 := by
      intro h'
      apply hne
      rw [← List.take_append_drop 4 d', ← List.take_append_drop 4 d, hs, h']
    refine crc_burst ?_ ?_ (hw.behind _ (Bytes.length_be _ _) (by omega) hs) (hinj _ _ h).symm
    · simp [hlen]
    · exact fun h' => hrest (List.append_cancel_left h')
  · intro id r hid
    have hdrop : (restamped id d).drop 4 = d.drop 4 := List.drop_left' (Bytes.length_be _ _)
    have hlen : (restamped id d).length = d.length := by simp [restamped]; omega
    apply crc_rejected (by omega) (by omega)
    rw [crcWith, hdrop, restamped, List.take_left' (Bytes.length_be _ _)]
    intro h
    refine crc_burst (by simp) ?_ ?_ (hinj _ _ h)
    · exact fun h' => hid (hinj _ _ (List.append_cancel_right h'))
    · exact differInWindow_bytes [] (Bytes.be 4 id.toNat) (Bytes.be 4 protocolId.toNat)
        (d.drop 4) (by simp) (by simp)

/-- The first request of a client with the key byte 1. -/
def sampleRequestPacket : List UInt8 := checked .connectionRequest [1]

/-- A request with its key changed, and one from a sender of another protocol. -/
theorem crc_detects_sample :
    CRC32.getCRCTableBased [0x31, 0x32] ≠ CRC32.getCRCTableBased [0x31, 0x33] ∧
    (∃ b, verifyPacketCRC.run (view (sampleRequestPacket.take 5 ++ [2]) [] 0) =
      .ok .invalidPacket b) ∧
    ∃ b, verifyPacketCRC.run (view (restamped 0 sampleRequestPacket) [] 0) =
      .ok .invalidPacket b := by
  have hd : HandshakePacket sample sampleRequestPacket :=
    .inl ⟨⟨sampleKey 0⟩, written_connectionRequest (by decide) _⟩
  have hsplit : sampleRequestPacket = sampleRequestPacket.take 5 ++ ([1] ++ []) := by
    decide +kernel
  have hw : DifferInWindow (sampleRequestPacket.take 5 ++ [2]) sampleRequestPacket := by
    conv => arg 2; rw [hsplit]
    exact differInWindow_bytes _ [2] [1] [] rfl (by decide)
  obtain ⟨hburst, hpacket⟩ := crc_detects sample
  obtain ⟨hcorrupt, hid⟩ := hpacket sampleRequestPacket hd
  refine ⟨?_, ?_, ?_⟩
  · exact hburst [0x31, 0x32] [0x31, 0x33] rfl (by decide)
      (differInWindow_bytes [0x31] [0x32] [0x33] [] rfl (by decide))
  · exact hcorrupt _ [] (by decide +kernel) (by decide +kernel) (by decide +kernel) hw
  · exact hid 0 [] (by decide +kernel)

end GameNetwork.Proofs
