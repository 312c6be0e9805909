import GameNetwork.Proofs.Sessions
import GameNetwork.Proofs.Room

namespace GameNetwork.Proofs

variable {C : Crypto} {s : Server C} {sender : Address} {d : List UInt8} {seed : C.Seed}
  {p_size : UInt32} {key : C.PublicKey} {j : Slot}

/-- The sender is sent a challenge, and the key its pending challenge then holds is the one
that the public key of its request leads to. -/
def Answered (sender : Address) (key : C.PublicKey) (o : Outcome (Server C) Listened) : Prop :=
  ∃ j, o.self.challenged j = true ∧ (o.self.challenges j).clientAddress = sender ∧
    ⟨sender, checked .challenge (o.self.challenges j).serverPublicKey.bytes⟩ ∈ o.sent ∧
    (o.self.challenges j).resolved.sharedKey =
      C.sessionKey key (o.self.challenges j).serverPrivateKey

theorem not_answered {o : Outcome (Server C) Listened} (h : o.sent = []) :
    ¬ Answered sender key o := by
  rintro ⟨j, -, -, hmem, -⟩
  rw [h] at hmem
  cases hmem

/-- A request verifies under a key as a request or as nothing. -/
theorem request_type (k : ShortSharedKey) (key : List UInt8) :
    hmacType C k (checked .connectionRequest key) = .connectionRequest ∨
      hmacType C k (checked .connectionRequest key) = .invalidPacket := by
  have h := hmacType_cases C k (checked .connectionRequest key)
  rw [getD_checked] at h
  exact h

/-- The challenge whose job was started again. -/
theorem restarted_answered_iff (hT : Tables s) {t : Server C} (hf : Alike s t)
    (hc : s.findExistingChallengeIndex sender = 1) {o : Outcome (Server C) Listened}
    (hself : o.self = withChallenge s (restarted (t.challenges 1)))
    (hsent : o.sent = [⟨sender, checked .challenge (s.challenges 1).serverPublicKey.bytes⟩]) :
    Answered sender key o ↔ C.sessionKey key (s.challenges 1).serverPrivateKey =
      C.sessionKey (s.challenges 1).clientPublicKey (s.challenges 1).serverPrivateKey := by
  have haddress := (hT.challenged_at hc).2
  obtain ⟨hclient, hpublic, hprivate⟩ := hf.keys
  have hresolved : (restarted (t.challenges 1)).resolved.sharedKey =
      C.sessionKey (s.challenges 1).clientPublicKey (s.challenges 1).serverPrivateKey := by
    rw [← hclient, ← hprivate]
    rfl
  unfold Answered
  rw [hself, hsent]
  constructor
  · rintro ⟨j, hj, -, -, hkey⟩
    obtain rfl := (withChallenge_tables hT _).challenged_one j hj
    rw [withChallenge_challenges_one, hresolved] at hkey
    rw [hkey, ← hprivate]
    rfl
  · intro hkey
    refine ⟨1, withChallenge_challenged_one s _, ?_, ?_, ?_⟩ <;> rw [withChallenge_challenges_one]
    · exact (hf.address 1).trans haddress
    · rw [← hpublic]
      exact List.mem_singleton.mpr rfl
    · rw [hresolved, ← hkey, ← hprivate]
      rfl

section
variable (hn : ¬ s.findExistingConnectionIndex sender > 0)
  (hc : s.findExistingChallengeIndex sender = 1)
include hn hc

/-- A datagram that does not verify under the key of the challenge is not answered. -/
theorem unverified_not_answered
    (ht : hmacType C (s.challenges 1).resolved.sharedKey d = .invalidPacket) :
    (s.listen (some (sender, d)) seed p_size).sent = [] := by
  by_cases hd : d.length ≤ receiveSize
  · obtain ⟨b, hl, -⟩ := listen_received s sender seed p_size hd
    rw [hl, classify_challenged hn hc, ht]
    rfl
  · rw [listen_failed (receive_oversized sender (Nat.lt_of_not_le hd))]
    rfl

/-- A request that does verify restarts the job of the challenge, on the keys it has. -/
theorem verified_answered_iff (hT : Tables s) (hs : s.state = .lobby)
    (hd : d.length ≤ receiveSize) (hk : 5 + C.roundedPublicKeySize ≤ d.length)
    (ht : hmacType C (s.challenges 1).resolved.sharedKey d = .connectionRequest) :
    Answered sender key (s.listen (some (sender, d)) seed p_size) ↔
      C.sessionKey key (s.challenges 1).serverPrivateKey =
        C.sessionKey (s.challenges 1).clientPublicKey (s.challenges 1).serverPrivateKey := by
  have hf := (hT.fetched_prepared sender).alike
  have hC : 5 + C.roundedPublicKeySize < 2 ^ 31 := by rw [receiveSize] at hd; omega
  have hclass : classify s sender d = .ok (some .connectionRequest) := by
    rw [classify_challenged hn hc, ht]
  rw [listen_request hT hd hclass hs hk, handleRequest_again (hf.tables hT) hC _
    (by rw [hf.findExistingChallengeIndex]; exact hc), hf.withChallenge, hf.serverPublicKey]
  exact restarted_answered_iff hT hf hc rfl rfl

end

/-- After a first request a challenge is pending, and the same request again fails its
verification under the key of that challenge. -/
theorem sample_pending : ∃ s : Server sample, Reachable s ∧ s.state = .lobby ∧
    ¬ s.findExistingConnectionIndex (sampleAddress 1) > 0 ∧
    s.findExistingChallengeIndex (sampleAddress 1) = ((1 : Slot).val : Int) ∧
    hmacType sample (s.challenges 1).resolved.sharedKey
      (checked .connectionRequest (sampleKey 0).bytes) = .invalidPacket := by
  have hrun : (Runs.run Server.step (Server.create sample)
      [sampleRequest (sampleAddress 1) 0 1]).map
      (fun s => decide (s.state = .lobby ∧
        ¬ s.findExistingConnectionIndex (sampleAddress 1) > 0 ∧
        s.findExistingChallengeIndex (sampleAddress 1) = ((1 : Slot).val : Int) ∧
        hmacType sample (s.challenges 1).resolved.sharedKey
          (checked .connectionRequest (sampleKey 0).bytes) = .invalidPacket)) = some true := by
    decide +kernel
  obtain ⟨s, hs, hd⟩ := Option.map_eq_some_iff.mp hrun
  exact ⟨s, ⟨_, hs⟩, of_decide_eq_true hd⟩

/-- A repeated request is answered when it passes for one under the key of the pending challenge,
and then for the key that the first one led to. -/
theorem repeated_request_iff (hr : Reachable s) (hs : s.state = .lobby)
    (hn : ¬ s.findExistingConnectionIndex sender > 0)
    (hc : s.findExistingChallengeIndex sender = j.val)
    (hw : written (ConnectionRequestPacket.write ⟨key⟩) = .ok d) (seed : C.Seed)
    (p_size : UInt32) :
    Answered sender key (s.listen (some (sender, d)) seed p_size) ↔
      d.length ≤ receiveSize ∧
      hmacType C (s.challenges j).resolved.sharedKey d = .connectionRequest ∧
      C.sessionKey key (s.challenges j).serverPrivateKey =
        C.sessionKey (s.challenges j).clientPublicKey (s.challenges j).serverPrivateKey := by
  have hT := hr.tables
  have hone : s.findExistingChallengeIndex sender = 1 := hT.challenge_slot (by omega)
  obtain rfl : j = 1 := Fin.ext (by simp; omega)
  have hC := request_fits hw
  rw [written_connectionRequest hC] at hw
  obtain rfl := Except.ok.inj hw
  have hk : 5 + C.roundedPublicKeySize ≤ (checked .connectionRequest key.bytes).length := by
    rw [length_checked, Crypto.length_public_key]
  rcases request_type (s.challenges 1).resolved.sharedKey key.bytes with ht | ht
  · by_cases hd : (checked .connectionRequest key.bytes).length ≤ receiveSize
    · rw [verified_answered_iff hn hone hT hs hd hk ht]
      simp [hd, ht]
    · rw [listen_failed (receive_oversized sender (Nat.lt_of_not_le hd))]
      exact iff_of_false (not_answered rfl) fun h => hd h.1
  · refine iff_of_false (not_answered (unverified_not_answered hn hone ht)) ?_
    rw [ht]
    simp

/-- A server with a pending challenge does not answer the same request once more. -/
theorem repeated_request_sample : ∃ s : Server sample, Reachable s ∧
    s.findExistingChallengeIndex (sampleAddress 1) = ((1 : Slot).val : Int) ∧
    ¬ Answered (sampleAddress 1) (sampleKey 0) (s.listen
      (some (sampleAddress 1, checked .connectionRequest (sampleKey 0).bytes)) (2 : Fin 8) 0) := by
  obtain ⟨s, hr, hlobby, hn, hc, ht⟩ := sample_pending
  have hw := written_connectionRequest (C := sample) (by decide) ⟨sampleKey 0⟩
  refine ⟨s, hr, hc, fun h => ?_⟩
  obtain ⟨-, htype, -⟩ := (repeated_request_iff (j := 1) hr hlobby hn hc hw (2 : Fin 8) 0).mp h
  rw [ht] at htype
  cases htype

/-- The first challenge is lost and the client asks again. -/
theorem repeated_request_unanswered :
    ¬ ∀ s : Server sample, Reachable s → s.state = .lobby → ∀ (sender : Address)
      (key : sample.PublicKey) (d : List UInt8) (seed : sample.Seed) (p_size : UInt32),
      ¬ s.findExistingConnectionIndex sender > 0 → s.findExistingChallengeIndex sender ≥ 0 →
      written (ConnectionRequestPacket.write ⟨key⟩) = .ok d →
      Answered sender key (s.listen (some (sender, d)) seed p_size) := by
  intro h
  obtain ⟨s, hr, hlobby, hn, hc, ht⟩ := sample_pending
  have hw := written_connectionRequest (C := sample) (by decide) ⟨sampleKey 0⟩
  have hpending : s.findExistingChallengeIndex (sampleAddress 1) ≥ 0 := by rw [hc]; decide
  exact not_answered (unverified_not_answered hn hc ht)
    (h s hr hlobby _ _ _ (2 : Fin 8) 0 hn hpending hw)

end GameNetwork.Proofs
