import GameNetwork.Proofs.Body
import GameNetwork.Server

namespace GameNetwork.Proofs
open Buffer

variable {C : Crypto} {s : Server C} {sender : Address} {d : List UInt8} {seed : C.Seed}
  {p_size : UInt32} {arrival : Arrival}

/-- The server after the verification step, which fetches the key of a challenge it looks up. -/
def prepared (s : Server C) (sender : Address) : Server C :=
  if s.findExistingConnectionIndex sender > 0 then s
  else if s.findExistingChallengeIndex sender < 0 then s
  else s.resolveChallenge (slot (s.findExistingChallengeIndex sender))

/-- What the verification makes of a datagram: under the key of the connection, under the key
of the challenge, or by its CRC. -/
def classify (s : Server C) (sender : Address) (d : List UInt8) :
    Except Fault (Option PacketType) :=
  if s.findExistingConnectionIndex sender > 0 then
    .ok (some (hmacType C
      (s.connections (slot (s.findExistingConnectionIndex sender))).sharedKey d))
  else if s.findExistingChallengeIndex sender < 0 then
    match crcType d with
    | .ok t => if t = .connectionRequest then .ok (some t) else .ok none
    | .error e => .error e
  else
    .ok (some (hmacType C
      (s.challenges (slot (s.findExistingChallengeIndex sender))).resolved.sharedKey d))

/-- All but a stranger's request ends in a MAC. -/
theorem classify_length {t : PacketType} (h : classify s sender d = .ok (some t))
    (hr : t ≠ .connectionRequest) (hi : t ≠ .invalidPacket) : 32 < d.length := by
  have hmac {k : ShortSharedKey} (hk : hmacType C k d = t) : 32 < d.length :=
    (hmacType_ne_invalid (by rw [hk]; exact hi)).1
  unfold classify at h
  split at h
  · exact hmac (by simpa using h)
  split at h
  · split at h
    · split at h
      · rename_i hreq
        cases h
        exact absurd hreq hr
      · cases h
    · cases h
  · exact hmac (by simpa using h)

theorem resolveChallenge_challenges (s : Server C) (i : Slot) :
    (s.resolveChallenge i).challenges i = (s.challenges i).resolved := by
  simp [Server.resolveChallenge]

/-- Fetching a key changes no connection. -/
theorem prepared_connections (s : Server C) (sender : Address) :
    (prepared s sender).connected = s.connected ∧
      (prepared s sender).connections = s.connections ∧ (prepared s sender).state = s.state := by
  unfold prepared
  split
  · exact ⟨rfl, rfl, rfl⟩
  split
  · exact ⟨rfl, rfl, rfl⟩
  · exact ⟨rfl, rfl, rfl⟩

theorem verifySender_received (s : Server C) (sender : Address) (hd : d.length ≤ receiveSize) :
    ∃ b, s.verifySender sender (view d (List.replicate (receiveSize - d.length) 0) 0) =
        (prepared s sender, match classify s sender d with
          | .ok v => .ok v b
          | .error e => .error e b) ∧
      (∀ t, classify s sender d = .ok (some t) → t ≠ .invalidPacket → AtBody d b) := by
  have hlen : d.length < 2 ^ 31 := by rw [receiveSize] at hd; omega
  have hall : (d ++ List.replicate (receiveSize - d.length) (0 : UInt8)).length ≤ receiveSize := by
    simp; omega
  unfold Server.verifySender classify prepared
  by_cases hc : s.findExistingConnectionIndex sender > 0
  · obtain ⟨i, hv, hi⟩ := verifyPacketHMAC_view (C := C) (d := d)
      (k := (s.connections (slot (s.findExistingConnectionIndex sender))).sharedKey)
      (r := List.replicate (receiveSize - d.length) 0) hlen
    rw [if_pos hc, if_pos hc, if_pos hc, ok_map hv]
    refine ⟨_, rfl, fun t ht hne => ?_⟩
    cases ht
    rw [hi hne]
    exact atBody_view hall
  by_cases hch : s.findExistingChallengeIndex sender < 0
  · obtain ⟨b, hv, hb⟩ := verifyPacketCRC_view (d := d)
      (r := List.replicate (receiveSize - d.length) 0) hlen
    rw [if_neg hc, if_neg hc, if_neg hc, if_pos hch, if_pos hch, if_pos hch]
    cases ht : crcType d with
    | error e =>
      rw [ht] at hv
      rw [error_bind hv]
      exact ⟨b, rfl, fun t h => by cases h⟩
    | ok t =>
      rw [ht] at hv
      rw [ok_bind hv]
      by_cases hr : t = .connectionRequest
      · subst hr
        rw [if_neg (by simp)]
        have hat := hb _ ht (by simp)
        have h4 := (crcType_ne_invalid ht (by simp)).1
        exact ⟨b, rfl, fun t _ _ => by rw [hat]; exact atBody_patched h4 hall⟩
      · rw [if_pos hr]
        simp only [if_neg hr]
        exact ⟨b, rfl, fun t h => by cases h⟩
  · obtain ⟨i, hv, hi⟩ := verifyPacketHMAC_view (C := C) (d := d)
      (k := (s.challenges (slot (s.findExistingChallengeIndex sender))).resolved.sharedKey)
      (r := List.replicate (receiveSize - d.length) 0) hlen
    rw [if_neg hc, if_neg hc, if_neg hc, if_neg hch, if_neg hch, if_neg hch]
    simp only [resolveChallenge_challenges]
    rw [ok_map hv]
    refine ⟨_, rfl, fun t ht hne => ?_⟩
    cases ht
    rw [hi hne]
    exact atBody_view hall

/-- A failed receive verifies as nothing, as the datagram of no sender. -/
theorem verifySender_failed (h : ∀ source d, arrival = some (source, d) → receiveSize < d.length) :
    (receiveBuffer arrival {}).1 = {} ∧ ∃ v, (v = none ∨ v = some .invalidPacket) ∧
      s.verifySender {} (receiveBuffer arrival {}).2 =
        (prepared s {}, .ok v (receiveBuffer arrival {}).2) := by
  obtain ⟨hs, hb⟩ := receiveBuffer_failed {} h
  have hmac (k : ShortSharedKey) := verifyPacketHMAC_small (C := C) (k := k)
    (b := (receiveBuffer arrival {}).2) (by rw [hb]; simp [hmacSize])
  have hcrc := verifyPacketCRC_small (b := (receiveBuffer arrival {}).2) (by rw [hb]; simp)
  refine ⟨hs, ?_⟩
  unfold Server.verifySender prepared
  by_cases hc : s.findExistingConnectionIndex {} > 0
  · rw [if_pos hc, if_pos hc, ok_map (hmac _)]
    exact ⟨_, .inr rfl, rfl⟩
  by_cases hch : s.findExistingChallengeIndex {} < 0
  · rw [if_neg hc, if_neg hc, if_pos hch, if_pos hch, ok_bind hcrc]
    exact ⟨_, .inl rfl, rfl⟩
  · rw [if_neg hc, if_neg hc, if_neg hch, if_neg hch]
    dsimp only
    rw [ok_map (hmac _)]
    exact ⟨_, .inr rfl, rfl⟩

/-- It ends the call after the verification. -/
theorem listen_failed (h : ∀ source d, arrival = some (source, d) → receiveSize < d.length) :
    s.listen arrival seed p_size = (prepared s {}).returns 0 := by
  obtain ⟨hs, v, hv, hverify⟩ := verifySender_failed (s := s) h
  unfold Server.listen
  simp only [hs, hverify]
  rcases hv with rfl | rfl <;> rfl

/-- One call on a datagram that fits: verification, then the `switch`. -/
theorem listen_received (s : Server C) (sender : Address) (seed : C.Seed) (p_size : UInt32)
    (hd : d.length ≤ receiveSize) :
    ∃ b, s.listen (some (sender, d)) seed p_size =
        (match classify s sender d with
          | .ok (some t) => (prepared s sender).dispatch t sender b seed p_size
          | .ok none => (prepared s sender).returns 0
          | .error e => (prepared s sender).throws e).catchStd { ret := 0 } ∧
      (∀ t, classify s sender d = .ok (some t) → t ≠ .invalidPacket → AtBody d b) := by
  obtain ⟨b, hv, hb⟩ := verifySender_received s sender hd
  refine ⟨b, ?_, hb⟩
  unfold Server.listen
  rw [receiveBuffer_some hd]
  simp only [hv]
  cases classify s sender d with
  | error e => rfl
  | ok v => cases v <;> rfl

end GameNetwork.Proofs
