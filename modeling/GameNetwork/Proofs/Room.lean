import GameNetwork.Outcome
import GameNetwork.Proofs.Written

namespace GameNetwork.Proofs
open Buffer

variable {b b' : Buffer} {bs : List UInt8} {n : Nat} {what : String} {u : Unit}

/-- A sequence that returns has returned from its first part. -/
theorem bind_ok {α β : Type} {x : BufferM α} {f : α → BufferM β} {v : β}
    (h : (x >>= f).run b = .ok v b') : ∃ a c, x.run b = .ok a c ∧ (f a).run c = .ok v b' := by
  cases hx : x.run b with
  | error e c => rw [error_bind hx] at h; cases h
  | ok a c => exact ⟨a, c, rfl, by rwa [ok_bind hx] at h⟩

/-- What a write of `n` bytes leaves: the same allocation and size, with the cursor moved on
inside the allocation. -/
structure Wrote (b : Buffer) (n : Nat) (b' : Buffer) : Prop where
  length : b'.data.length = b.data.length
  size : b'.size = b.size
  index : b'.index = b.index + n
  room : b.index + n ≤ b.data.length ∨ n = 0

theorem Wrote.trans {c : Buffer} {m : Nat} (h : Wrote b n c) (h' : Wrote c m b') :
    Wrote b (n + m) b' where
  length := h'.length.trans h.length
  size := h'.size.trans h.size
  index := by rw [h'.index, h.index]; omega
  room := by
    have := h.length
    have := h.index
    rcases h.room with hn | hn <;> rcases h'.room with hm | hm <;> omega

theorem store_wrote (h : (store bs).run b = .ok u b') : Wrote b bs.length b' := by
  rw [store, ok_bind (EStateM.run_get _)] at h
  split at h
  · rename_i hle
    cases h
    refine ⟨?_, rfl, rfl, .inl hle⟩
    simp
    omega
  · cases h

theorem checkRoom_ok (h : (checkRoom n what).run b = .ok u b') :
    b' = b ∧ int32 (b.index + n) ≤ b.size := by
  rw [checkRoom, ok_bind (EStateM.run_get _)] at h
  split at h
  · cases h
  · cases h
    exact ⟨rfl, by omega⟩

theorem writeInteger_wrote {v : UInt32} (h : (writeInteger v).run b = .ok u b') :
    Wrote b 4 b' ∧ int32 (b.index + 4) ≤ b.size := by
  obtain ⟨_, c, hc, hs⟩ := bind_ok h
  obtain ⟨rfl, hle⟩ := checkRoom_ok hc
  have hw := store_wrote hs
  rw [Bytes.length_be] at hw
  exact ⟨hw, hle⟩

theorem writeShort_wrote {v : UInt16} (h : (writeShort v).run b = .ok u b') : Wrote b 2 b' := by
  obtain ⟨_, c, hc, hs⟩ := bind_ok h
  obtain ⟨rfl, -⟩ := checkRoom_ok hc
  have hw := store_wrote hs
  rwa [Bytes.length_be] at hw

theorem writeByte_wrote {v : UInt8} (h : (writeByte v).run b = .ok u b') : Wrote b 1 b' := by
  obtain ⟨_, c, hc, hs⟩ := bind_ok h
  obtain ⟨rfl, -⟩ := checkRoom_ok hc
  exact store_wrote hs

theorem writeBytes_wrote (h : (writeBytes bs).run b = .ok u b') : Wrote b bs.length b' := by
  induction bs generalizing b with
  | nil => cases h; exact ⟨rfl, rfl, rfl, .inr rfl⟩
  | cons v bs ih =>
    obtain ⟨_, c, hs, hr⟩ := bind_ok h
    have hw := (store_wrote hs).trans (ih hr)
    rwa [List.length_singleton, Nat.add_comm] at hw

theorem writeBuffer_wrote (h : (writeBuffer bs).run b = .ok u b') : Wrote b bs.length b' := by
  obtain ⟨_, c, hc, hs⟩ := bind_ok h
  have : c = b := by
    rw [checkRoomUnsigned, ok_bind (EStateM.run_get _)] at hc
    split at hc
    · cases hc
    · cases hc; rfl
  exact this ▸ writeBytes_wrote hs

theorem init_sized (h : (init n).run {} = .ok u b) :
    b = ⟨List.replicate (uint32 n) 0, int32 n, 0⟩ ∨ b = {} := by
  rw [init, ok_bind (EStateM.run_get _), if_neg (by simp)] at h
  split at h
  · exact .inl (EStateM.Result.ok.inj h).2.symm
  · exact .inr (EStateM.Result.ok.inj h).2.symm

/-- A fresh buffer in which an integer can be written has a size that stays an `int`. -/
theorem init_ok {v : UInt32} {rest : BufferM Unit}
    (h : (do init n; writeInteger v; rest : BufferM Unit).run {} = .ok u b') :
    n % 2 ^ 32 < 2 ^ 31 ∧ ∃ c, c.data.length = n % 2 ^ 32 ∧ c.index = 4 ∧
      rest.run c = .ok u b' := by
  obtain ⟨_, b, hi, h⟩ := bind_ok h
  obtain ⟨_, c, hw, hr⟩ := bind_ok h
  obtain ⟨hw, hle⟩ := writeInteger_wrote hw
  have hn : uint32 (n : Int) = n % 2 ^ 32 := by rw [uint32]; omega
  rcases init_sized hi with rfl | rfl
  · have h4 : int32 (((0 : Nat) : Int) + 4) = 4 := int32_eq (by omega) (by omega)
    have hlen := hw.length
    rw [List.length_replicate, hn] at hlen
    dsimp only at hle
    rw [h4, int32, Int.bmod_def] at hle
    refine ⟨?_, c, hlen, hw.index, hr⟩
    split at hle <;> omega
  · rcases hw.room with h | h
    · exact absurd h (by decide)
    · omega

variable (C : Crypto) {k : ShortSharedKey} {bytes : List UInt8}

/-- A writer that returns has its result. -/
theorem written_ok {write : BufferM Unit} (h : written write = .ok bytes) :
    ∃ b, write.run {} = .ok () b := by
  unfold written at h
  split at h
  · rename_i u b hw
    exact ⟨b, hw⟩
  · cases h

/-- A handshake packet is written only when its public key fits a buffer. -/
theorem key_fits {v : UInt32} {t : UInt8} {key : List UInt8} {rest : BufferM Unit}
    (h : (do
      init (minimumHeaderSize + key.length)
      writeInteger v
      writeByte t
      writeBuffer key
      rest : BufferM Unit).run {} = .ok u b) : 5 + key.length < 2 ^ 31 := by
  obtain ⟨hlt, c, hlen, hidx, hr⟩ := init_ok h
  obtain ⟨_, c1, h1, hr⟩ := bind_ok hr
  obtain ⟨_, c2, h2, hr⟩ := bind_ok hr
  have hw := (writeByte_wrote h1).trans (writeBuffer_wrote h2)
  rw [minimumHeaderSize] at hlt hlen
  rcases hw.room with hroom | hroom <;> omega

/-- A request is sent only when the public key fits a buffer. -/
theorem request_fits {C : Crypto} {p : ConnectionRequestPacket C}
    (h : written p.write = .ok bytes) : 5 + C.roundedPublicKeySize < 2 ^ 31 := by
  obtain ⟨b, hb⟩ := written_ok h
  rw [ConnectionRequestPacket.write, connectionRequestPacketSize,
    ← Crypto.length_public_key p.clientPublicKey] at hb
  rw [← Crypto.length_public_key p.clientPublicKey]
  exact key_fits hb

/-- So is a challenge. -/
theorem challenge_fits {C : Crypto} {p : ChallengePacket C}
    (h : written p.write = .ok bytes) : 5 + C.roundedPublicKeySize < 2 ^ 31 := by
  obtain ⟨b, hb⟩ := written_ok h
  rw [ChallengePacket.write, challengePacketSize,
    ← Crypto.length_public_key p.serverPublicKey] at hb
  rw [← Crypto.length_public_key p.serverPublicKey]
  exact key_fits hb

/-- Game data is sent only when the packet fits a buffer. -/
theorem data_fits {sequence : UInt16} {data : GameData}
    (h : written (ConnectionDataPacket.write C
      ⟨sequence, UInt32.ofNat data.bytes.length, data.bytes⟩ k) = .ok bytes) :
    43 + data.bytes.length < 2 ^ 31 := by
  have hlt32 := data.length_lt
  have hsize : (UInt32.ofNat data.bytes.length).toNat = data.bytes.length := by
    rw [UInt32.toNat_ofNat']
    omega
  obtain ⟨b, hb⟩ := written_ok h
  obtain ⟨hlt, c, hlen, hidx, hr⟩ := init_ok hb
  obtain ⟨_, c1, h1, hr⟩ := bind_ok hr
  obtain ⟨_, c2, h2, hr⟩ := bind_ok hr
  obtain ⟨_, c3, h3, hr⟩ := bind_ok hr
  obtain ⟨_, c4, h4, hr⟩ := bind_ok hr
  have hw := (((writeByte_wrote h1).trans (writeShort_wrote h2)).trans
    (writeInteger_wrote h3).1).trans (writeBuffer_wrote h4)
  simp only [hsize, List.take_length, connectionDataPacketSize, minimumHeaderSize, hmacSize]
    at hlt hlen hw
  rcases hw.room with hroom | hroom <;> omega

/-- Game data that is sent is sealed under the key. -/
theorem written_data {sequence : UInt16} {data : GameData}
    (h : written (ConnectionDataPacket.write C
      ⟨sequence, UInt32.ofNat data.bytes.length, data.bytes⟩ k) = .ok bytes) :
    bytes = sealed C k (dataMessage sequence data.bytes) := by
  rw [written_connectionData C k sequence (data_fits C h)] at h
  exact (Except.ok.inj h).symm

end GameNetwork.Proofs
