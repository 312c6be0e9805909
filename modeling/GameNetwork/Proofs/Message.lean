import GameNetwork.Proofs.Ideal
import GameNetwork.Proofs.Reacts
import GameNetwork.Proofs.Tables

namespace GameNetwork.Proofs

variable {C : Crypto} {k k' : ShortSharedKey} {t : PacketType} {x y : C.Seed}

/-- What the parties send, before it is framed. A handshake packet is shown by the seed of its
public key. -/
inductive Message (C : Crypto) where
  | request (x : C.Seed)
  | challenge (y : C.Seed)
  | response (k : ShortSharedKey)
  | accepted (k : ShortSharedKey) (j : Slot)
  | data (k : ShortSharedKey) (sequence : UInt16) (gameData : List UInt8)
  | disconnect (k : ShortSharedKey)

namespace Message

def type : Message C → PacketType
  | request _ => .connectionRequest
  | challenge _ => .challenge
  | response _ => .challengeResponse
  | accepted _ _ => .connectionAccepted
  | data _ _ _ => .connectionData
  | disconnect _ => .disconnect

def bytes : Message C → List UInt8
  | request x => checked .connectionRequest (C.publicKey x).bytes
  | challenge y => checked .challenge (C.publicKey y).bytes
  | response k => sealed C k (header .challengeResponse)
  | accepted k j => sealed C k (acceptMessage j)
  | data k sequence gameData => sealed C k (dataMessage sequence gameData)
  | disconnect k => sealed C k (header .disconnect)

theorem ofByte_bytes (m : Message C) : PacketType.ofByte (m.bytes.getD 4 0) = m.type := by
  cases m with
  | request x => rw [bytes, getD_checked]; rfl
  | challenge y => rw [bytes, getD_checked]; rfl
  | response k => rw [bytes, ← List.append_nil (header _), getD_sealed_header]; rfl
  | accepted k j => rw [bytes, acceptMessage, getD_sealed_header]; rfl
  | data k sequence gameData => rw [bytes, dataMessage, getD_sealed_header]; rfl
  | disconnect k => rw [bytes, ← List.append_nil (header _), getD_sealed_header]; rfl

/-- Messages of different types are never framed alike. -/
theorem type_eq {m m' : Message C} (h : m.bytes = m'.bytes) : m.type = m'.type := by
  rw [← ofByte_bytes, h, ofByte_bytes]

theorem request_ne_challenge : (request x).bytes ≠ (challenge (C := C) y).bytes := by
  intro h
  cases type_eq h

/-- Whatever key a message verifies under, it verifies as its own type. -/
theorem type_of_hmac {m : Message C} (h : hmacType C k m.bytes = t) (ht : t ≠ .invalidPacket) :
    m.type = t := by
  subst h
  rw [(hmacType_ne_invalid ht).2.2, ofByte_bytes]

theorem type_of_crc {m : Message C} (h : crcType m.bytes = .ok t) (ht : t ≠ .invalidPacket) :
    m.type = t := by
  rw [(crcType_ne_invalid h ht).2, ofByte_bytes]

theorem type_of_client {c : Client C} {m : Message C} (h : clientType c m.bytes = .ok t)
    (ht : t ≠ .invalidPacket) : m.type = t := by
  unfold clientType at h
  split at h
  · exact type_of_crc h ht
  · exact type_of_hmac (Except.ok.inj h) ht

theorem type_of_server {s : Server C} {sender : Address} {m : Message C}
    (h : classify s sender m.bytes = .ok (some t)) (ht : t ≠ .invalidPacket) : m.type = t := by
  unfold classify at h
  split at h
  · exact type_of_hmac (by simpa using h) ht
  · split at h
    · cases hc : crcType m.bytes with
      | error e => rw [hc] at h; cases h
      | ok u =>
        rw [hc] at h
        dsimp only at h
        split at h
        · cases h
          exact type_of_crc hc ht
        · cases h
    · exact type_of_hmac (by simpa using h) ht

theorem eq_request {m : Message C} (h : m.type = .connectionRequest) : ∃ x, m = .request x := by
  cases m <;> first | exact ⟨_, rfl⟩ | cases h

theorem eq_challenge {m : Message C} (h : m.type = .challenge) : ∃ y, m = .challenge y := by
  cases m <;> first | exact ⟨_, rfl⟩ | cases h

theorem eq_accepted {m : Message C} (h : m.type = .connectionAccepted) :
    ∃ k j, m = .accepted k j := by
  cases m <;> first | exact ⟨_, _, rfl⟩ | cases h

theorem eq_disconnect {m : Message C} (h : m.type = .disconnect) : ∃ k, m = .disconnect k := by
  cases m <;> first | exact ⟨_, rfl⟩ | cases h

end Message

namespace Ideal

variable (hC : Ideal C)
include hC

theorem publicKey_injective (h : C.publicKey x = C.publicKey y) : x = y := by
  rcases hC.session_key_inj x x y x (by rw [h]) with ⟨h, -⟩ | ⟨-, h⟩ <;> exact h

/-- What is sealed under a key verifies under no other. -/
theorem sealed_key {message : List UInt8} (h : hmacType C k (sealed C k' message) = t)
    (ht : t ≠ .invalidPacket) : k' = k :=
  (hC.hmac_key_inj k k' message (sealed_hmac (by rwa [h]))).symm

theorem accepted_injective {j j' : Slot}
    (h : (Message.accepted k j : Message C).bytes = (Message.accepted k' j' : Message C).bytes) :
    k = k' ∧ j = j' := by
  change acceptMessage j ++ (C.hmacSha256 k (acceptMessage j)).bytes =
    acceptMessage j' ++ (C.hmacSha256 k' (acceptMessage j')).bytes at h
  have hlt : j.val < 4 := j.isLt
  have hlt' : j'.val < 4 := j'.isLt
  have hlen : (acceptMessage j).length = (acceptMessage j').length := by simp [acceptMessage]
  obtain ⟨hm, hmac⟩ := List.append_inj h hlen
  have hj : j.val = j'.val := Bytes.be_injective (n := 4) (by omega) (by omega)
    (List.append_cancel_left hm)
  obtain rfl := Fin.ext hj
  exact ⟨hC.hmac_key_inj k k' (acceptMessage j) (Digest.ext hmac), rfl⟩

theorem request_injective (h : (Message.request x).bytes = (Message.request y).bytes) : x = y := by
  refine hC.publicKey_injective ?_
  rw [← keyOf_checked .connectionRequest (C.publicKey x),
    ← keyOf_checked .connectionRequest (C.publicKey y)]
  exact congrArg keyOf h

theorem challenge_injective (h : (Message.challenge x).bytes = (Message.challenge y).bytes) :
    x = y := by
  refine hC.publicKey_injective ?_
  rw [← keyOf_checked .challenge (C.publicKey x), ← keyOf_checked .challenge (C.publicKey y)]
  exact congrArg keyOf h

end Ideal

end GameNetwork.Proofs
