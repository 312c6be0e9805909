import GameNetwork.Lib.Runs
import GameNetwork.Proofs.Ideal
import GameNetwork.Proofs.Tables

namespace GameNetwork.Proofs
open Buffer

variable {C : Crypto} {s : Server C} {sender : Address} {d : List UInt8} {b : Buffer}
  {arrival : Arrival} {t : PacketType} {fault : Fault}

/-- A part of the code throws what a buffer throws. -/
def Throws {α : Type} (x : BufferM α) (b : Buffer) : Prop :=
  ∃ what b', x.run b = .error (.outOfRange what) b'

/-- The `Read` of each packet type the server handles. -/
def readBody (C : Crypto) : PacketType → BufferM Unit
  | .connectionRequest => do let _ ← ConnectionRequestPacket.read C
  | .challengeResponse => ChallengeResponsePacket.read
  | .connectionData => do let _ ← ConnectionDataPacket.read
  | .disconnect => DisconnectPacket.read
  | _ => pure ()

/-- What arrives fails the verification its sender is given, or the `Read` of its type throws. -/
def Refused (s : Server C) (arrival : Arrival) : Prop :=
  match (s.verifySender (receiveBuffer arrival {}).1 (receiveBuffer arrival {}).2).2 with
  | .error _ _ => True
  | .ok none _ => True
  | .ok (some t) b => t = .invalidPacket ∨ Throws (readBody C t) b

/-- The server with the key of a challenge fetched. -/
def withKey (s : Server C) (i : Slot) (key : ShortSharedKey) : Server C :=
  { s with
    challenges := Function.update s.challenges i
      { s.challenges i with sharedKey := key, sharedKeyFuture := none } }

/-- A call that returns 0, sends nothing and stores nothing. The server is as it was, or has
fetched the pending key of the sender's own challenge. -/
structure LeftAlone (s : Server C) (sender : Address) (o : Outcome (Server C) Listened) :
    Prop where
  result : o.result = .ok { ret := 0, gameData := none }
  sent : o.sent = []
  self : o.self = s ∨ ∃ i key, s.challenged i = true ∧ (s.challenges i).clientAddress = sender ∧
    (s.challenges i).sharedKeyFuture = some key ∧ o.self = withKey s i key

theorem resolveChallenge_cases (s : Server C) (i : Slot) :
    s.resolveChallenge i = s ∨ ∃ key, (s.challenges i).sharedKeyFuture = some key ∧
      s.resolveChallenge i = withKey s i key := by
  cases hf : (s.challenges i).sharedKeyFuture with
  | none =>
    left
    simp [Server.resolveChallenge, ChallengeInfo.resolved, hf]
  | some key =>
    right
    refine ⟨key, rfl, ?_⟩
    simp [Server.resolveChallenge, ChallengeInfo.resolved, withKey, hf]

/-- All that a verification can change. -/
theorem prepared_cases (s : Server C) (sender : Address) :
    prepared s sender = s ∨ ∃ i key, s.challenged i = true ∧
      (s.challenges i).clientAddress = sender ∧ (s.challenges i).sharedKeyFuture = some key ∧
      prepared s sender = withKey s i key := by
  unfold prepared
  split
  · exact .inl rfl
  split
  · exact .inl rfl
  · rename_i h
    obtain ⟨i, he, hi, ha⟩ := challenge_found h
    rw [he, slot_val]
    rcases resolveChallenge_cases s i with hr | ⟨key, hf, hr⟩
    · exact .inl hr
    · exact .inr ⟨i, key, hi, ha, hf, hr⟩

theorem returns_leftAlone (s : Server C) (sender : Address) :
    LeftAlone s sender ((prepared s sender).returns 0) := ⟨rfl, rfl, prepared_cases s sender⟩

theorem verifySender_self (s : Server C) (sender : Address) (b : Buffer) :
    (s.verifySender sender b).1 = prepared s sender := by
  unfold Server.verifySender prepared
  by_cases hc : s.findExistingConnectionIndex sender > 0
  · rw [if_pos hc, if_pos hc]
  by_cases hch : s.findExistingChallengeIndex sender < 0
  · rw [if_neg hc, if_neg hc, if_pos hch, if_pos hch]
  · rw [if_neg hc, if_neg hc, if_neg hch, if_neg hch]

theorem crcType_error (h : crcType d = .error fault) : fault = .outOfRange readText := by
  unfold crcType at h
  split at h
  · cases h
  split at h
  · cases h
    rfl
  split at h
  · cases h
  split at h
  · cases h
    rfl
  · cases h

theorem classify_error (h : classify s sender d = .error fault) :
    fault = .outOfRange readText := by
  unfold classify at h
  split at h
  · cases h
  split at h
  · split at h
    · split at h <;> cases h
    · rename_i hc
      cases h
      exact crcType_error hc
  · cases h

/-- A verification that does not return has thrown. -/
theorem verifySender_error {arrival : Arrival}
    (h : (s.verifySender (receiveBuffer arrival {}).1 (receiveBuffer arrival {}).2).2 =
      .error fault b) : fault = .outOfRange readText := by
  rcases receive_cases arrival with hf | ⟨source, d, rfl, hd⟩
  · obtain ⟨hs, v, -, hv⟩ := verifySender_failed (s := s) hf
    rw [hs, hv] at h
    cases h
  obtain ⟨b', hv, -⟩ := verifySender_received s source hd
  rw [receiveBuffer_some hd, hv] at h
  cases hc : classify s source d with
  | error e =>
    rw [hc] at h
    cases h
    exact classify_error hc
  | ok v =>
    rw [hc] at h
    cases h

theorem throws_discard {α : Type} {x : BufferM α} (h : Throws (do let _ ← x) b) :
    Throws x b := by
  obtain ⟨what, b', h⟩ := h
  cases hx : x.run b with
  | ok a c => rw [ok_bind hx] at h; cases h
  | error e c =>
    rw [error_bind hx] at h
    cases h
    exact ⟨what, _, hx⟩

/-- A `Read` that throws ends its case of the `switch`, if that case reads at all. -/
theorem dispatch_refused (seed : C.Seed) (p_size : UInt32)
    (h : t = .invalidPacket ∨ Throws (readBody C t) b) :
    (s.dispatch t sender b seed p_size).catchStd { ret := 0 } = s.returns 0 := by
  rcases h with rfl | h
  · rfl
  cases t with
  | connectionRequest =>
    obtain ⟨what, b', hr⟩ := throws_discard h
    rw [Server.dispatch, hr]
    split <;> rfl
  | connectionData =>
    obtain ⟨what, b', hr⟩ := throws_discard h
    rw [Server.dispatch, hr]
    split <;> rfl
  | challengeResponse | disconnect | invalidPacket | challenge | connectionAccepted | other =>
    -- nothing is read
    obtain ⟨what, b', hr⟩ := h
    cases hr

/-- What is refused leaves the server, the network and the caller's buffer alone. -/
theorem refused_leaves_alone (s : Server C) (arrival : Arrival) (seed : C.Seed)
    (p_size : UInt32) (h : Refused s arrival) :
    LeftAlone s (receiveBuffer arrival {}).1 (s.listen arrival seed p_size) := by
  have hs := verifySender_self s (receiveBuffer arrival {}).1 (receiveBuffer arrival {}).2
  have hend : s.listen arrival seed p_size =
      (prepared s (receiveBuffer arrival {}).1).returns 0 := by
    unfold Refused at h
    unfold Server.listen
    cases hv : (s.verifySender (receiveBuffer arrival {}).1 (receiveBuffer arrival {}).2).2 with
    | error e b =>
      simp only [hs, hv, verifySender_error hv]
      rfl
    | ok v b =>
      rw [hv] at h
      cases v with
      | none =>
        simp only [hs, hv]
        rfl
      | some t =>
        simp only [hs, hv]
        exact dispatch_refused seed p_size h
  rw [hend]
  exact returns_leftAlone s _

/-- A datagram that fits and does not verify is refused. -/
theorem refused_invalid (hd : d.length ≤ receiveSize)
    (ht : classify s sender d = .ok (some .invalidPacket)) : Refused s (some (sender, d)) := by
  obtain ⟨b, hv, -⟩ := verifySender_received s sender hd
  rw [ht] at hv
  rw [Refused, receiveBuffer_some hd, hv]
  exact .inl rfl

/-- A response under a wrong key, while one client is connected and another is challenged. -/
theorem refused_leaves_alone_sample :
    ∃ s, Runs.run Server.step (Server.create sample)
        (sampleJoin (sampleAddress 1) 0 1 ++ [sampleRequest (sampleAddress 2) 2 3]) = some s ∧
      s.connected 1 = true ∧ s.challenged 1 = true ∧
      (s.challenges 1).clientAddress = sampleAddress 2 ∧
      LeftAlone s (sampleAddress 2) (s.listen (some (sampleAddress 2,
        sealed sample 0 (header .challengeResponse))) (0 : Fin 8) 16) := by
  have hrun : (Runs.run Server.step (Server.create sample)
      (sampleJoin (sampleAddress 1) 0 1 ++ [sampleRequest (sampleAddress 2) 2 3])).map
      (fun s => decide (s.connected 1 = true ∧ s.challenged 1 = true ∧
        (s.challenges 1).clientAddress = sampleAddress 2 ∧
        classify s (sampleAddress 2) (sealed sample 0 (header .challengeResponse)) =
          .ok (some .invalidPacket))) = some true := by
    decide +kernel
  obtain ⟨s, hs, hd⟩ := Option.map_eq_some_iff.mp hrun
  obtain ⟨hc, hch, ha, ht⟩ := of_decide_eq_true hd
  exact ⟨s, hs, hc, hch, ha, refused_leaves_alone s _ (0 : Fin 8) 16
    (refused_invalid (by decide +kernel) ht)⟩

end GameNetwork.Proofs
