import GameNetwork.Proofs.Challenges
import GameNetwork.Proofs.Removal

namespace GameNetwork.Proofs

variable {C : Crypto} {s : Server C} {sender : Address} {d : List UInt8} {i : Slot}

/-- The pending challenge of a sender is taken back and nothing else, and a request from whoever
comes next is stored. -/
structure Withdrawn (s t : Server C) (sender : Address) (i : Slot) : Prop where
  gone : ∀ j, t.challenged j = true → (t.challenges j).clientAddress ≠ sender
  unfound : t.findExistingChallengeIndex sender < 0
  empty : t.challenged i = false ∧ t.challenges i = {}
  others : ∀ j, j ≠ i → t.challenged j = s.challenged j ∧ t.challenges j = s.challenges j
  connected : t.connected = s.connected
  connections : t.connections = s.connections
  numConnections : t.numConnections = s.numConnections
  reusable : t.state = .lobby → ∀ (next : Address) (d : List UInt8) (seed : C.Seed)
    (p_size : UInt32), Requests t next d →
      StoresChallenge t (t.listen (some (next, d)) seed p_size).self next d seed

/-- An emptied challenge slot was the only one in use. -/
theorem dropChallenge_withdrawn (hT : Tables s) (sender : Address) :
    Withdrawn s (dropChallenge s) sender 1 := by
  have hT' := dropChallenge_tables hT
  have hempty : (dropChallenge s).challenged 1 = false := by simp [dropChallenge]
  have hnone (j : Slot) : ¬ (dropChallenge s).challenged j = true := by
    intro hj
    obtain rfl := hT'.challenged_one j hj
    rw [hempty] at hj
    cases hj
  constructor
  · exact fun j hj => absurd hj (hnone j)
  · rcases hT'.challenge_cases sender with ⟨-, hj, -⟩ | ⟨hlt, -⟩
    · exact absurd hj (hnone 1)
    · exact hlt
  · exact ⟨hempty, by simp [dropChallenge]⟩
  · intro j hj
    simp [dropChallenge, hj]
  · rfl
  · rfl
  · rfl
  · intro hs next d seed p_size hreq
    exact (stores_challenge_iff hT' hs hreq seed p_size).mpr hempty

/-- A client that is not connected takes its pending challenge back by a `DISCONNECT` under the
key of that challenge. -/
theorem disconnect_withdraws (hr : Reachable s) (hi : s.challenged i = true)
    (ha : (s.challenges i).clientAddress = sender) (hj : ¬ Joined s sender)
    (hd : d.length ≤ receiveSize)
    (ht : hmacType C (s.challenges i).resolved.sharedKey d = .disconnect) (seed : C.Seed)
    (p_size : UInt32) :
    Withdrawn s (s.listen (some (sender, d)) seed p_size).self sender i := by
  have hT := hr.tables
  obtain rfl := hT.challenged_one i hi
  have hn : ¬ s.findExistingConnectionIndex sender > 0 := fun h => hj (joined_of_index h)
  have hc : s.findExistingChallengeIndex sender = 1 := by
    rcases hT.challenge_cases sender with ⟨hc, -⟩ | ⟨-, hno⟩
    · exact hc
    · exact absurd ⟨hi, ha⟩ hno
  have hclass : classify s sender d = .ok (some .disconnect) := by
    rw [classify_challenged hn hc, ht]
  rw [listen_withdraw hT hd hclass hn hc]
  exact dropChallenge_withdrawn hT sender

/-- A client asks for a challenge and takes it back. -/
theorem disconnect_withdraws_sample : ∃ s : Server sample, Reachable s ∧
    Withdrawn s (s.listen (some (sampleAddress 1, sealed sample
      (s.challenges 1).resolved.sharedKey (header .disconnect))) (2 : Fin 8) 0).self
      (sampleAddress 1) 1 := by
  have hrun : (Runs.run Server.step (Server.create sample)
      [sampleRequest (sampleAddress 1) 0 1]).map
      (fun s => decide (s.challenged 1 = true ∧
        (s.challenges 1).clientAddress = sampleAddress 1 ∧
        ¬ ∃ i, i ≠ 0 ∧ s.connected i = true ∧
          (s.connections i).clientAddress = sampleAddress 1)) = some true := by
    decide +kernel
  obtain ⟨s, hs, hd⟩ := Option.map_eq_some_iff.mp hrun
  obtain ⟨hi, ha, hj⟩ := of_decide_eq_true hd
  have hlen : (sealed sample (s.challenges 1).resolved.sharedKey
      (header .disconnect)).length ≤ receiveSize := by
    rw [length_sealed, length_header]
    decide
  have ht : hmacType sample (s.challenges 1).resolved.sharedKey
      (sealed sample (s.challenges 1).resolved.sharedKey (header .disconnect)) = .disconnect := by
    have h := hmacType_sealed (C := sample) (k := (s.challenges 1).resolved.sharedKey) .disconnect []
    rwa [List.append_nil] at h
  exact ⟨s, ⟨_, hs⟩, disconnect_withdraws ⟨_, hs⟩ hi ha hj hlen ht (2 : Fin 8) 0⟩

end GameNetwork.Proofs
