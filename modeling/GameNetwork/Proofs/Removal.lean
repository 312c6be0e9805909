import GameNetwork.Proofs.Sessions

namespace GameNetwork.Proofs

variable {C : Crypto} {s t : Server C} {a : Address} {d : List UInt8} {seed : C.Seed}
  {p_size : UInt32} {i : Slot}

/-- The address is connected in a slot past 0. -/
def Joined (s : Server C) (a : Address) : Prop :=
  ∃ i, i ≠ 0 ∧ s.connected i = true ∧ (s.connections i).clientAddress = a

/-- A connection slot is emptied and counted off. -/
def withoutConnection (s : Server C) (i : Slot) : Server C :=
  { s with
    connected := Function.update s.connected i false
    connections := Function.update s.connections i {}
    numConnections := s.numConnections - 1 }

/-- A challenge slot is emptied. -/
def withoutChallenge (s : Server C) (j : Slot) : Server C :=
  { s with
    challenged := Function.update s.challenged j false
    challenges := Function.update s.challenges j {} }

/-- Whoever has another address is still connected, with the same record. -/
def KeepsOthers (s t : Server C) (a : Address) : Prop :=
  ∀ k, s.connected k = true → (s.connections k).clientAddress ≠ a →
    t.connected k = true ∧ t.connections k = s.connections k

/-- The removal of an address clears the slot it was found in and nothing else, and neither a
kick nor a verified `DISCONNECT` costs anyone else the connection. -/
structure RemovesExactly (s : Server C) (a : Address) : Prop where
  connection : Joined s a → ∃ i, i ≠ 0 ∧ s.findExistingConnectionIndex a = i.val ∧
    s.removeClient a = withoutConnection s i
  challenge : ¬ Joined s a → ∀ j : Slot, s.findExistingChallengeIndex a = j.val →
    s.removeClient a = withoutChallenge s j
  nothing : ¬ Joined s a → s.findExistingChallengeIndex a < 0 → s.removeClient a = s
  kick : KeepsOthers s (s.kickClient a).self a
  leave : ∀ (d : List UInt8) (seed : C.Seed) (p_size : UInt32), d.length ≤ receiveSize →
    classify s a d = .ok (some .disconnect) →
    KeepsOthers s (s.listen (some (a, d)) seed p_size).self a

theorem joined_of_index (h : s.findExistingConnectionIndex a > 0) : Joined s a := by
  obtain ⟨i, -, hi, hc, ha⟩ := connection_found h
  exact ⟨i, hi, hc, ha⟩

/-- The slot the removal clears is the one found only if that is slot 1. -/
theorem dropConnection_exact (hi : s.connected i = true) :
    dropConnection s = withoutConnection s i ↔ i = 1 := by
  constructor
  · intro h
    by_contra hne
    have hc := congrFun (congrArg Server.connected h) i
    simp [dropConnection, withoutConnection, hne, hi] at hc
  · rintro rfl
    rfl

theorem dropChallenge_exact (hi : s.challenged i = true) :
    dropChallenge s = withoutChallenge s i ↔ i = 1 := by
  constructor
  · intro h
    by_contra hne
    have hc := congrFun (congrArg Server.challenged h) i
    simp [dropChallenge, withoutChallenge, hne, hi] at hc
  · rintro rfl
    rfl

theorem KeepsOthers.same (hc : t.connected = s.connected) (hn : t.connections = s.connections) :
    KeepsOthers s t a := by
  intro k hk _
  rw [hc, hn]
  exact ⟨hk, rfl⟩

/-- A removal from the same connections keeps the others if slot 1 is the one found. -/
theorem removeClient_keeps (hc : t.connected = s.connected) (hn : t.connections = s.connections)
    (h : Joined s a → s.findExistingConnectionIndex a = 1) :
    KeepsOthers s (t.removeClient a) a := by
  have hidx : t.findExistingConnectionIndex a = s.findExistingConnectionIndex a := by
    rw [Server.findExistingConnectionIndex, hc, hn, Server.findExistingConnectionIndex]
  by_cases hpos : s.findExistingConnectionIndex a > 0
  · have hone := h (joined_of_index hpos)
    rw [removeClient_connection (by rw [hidx]; exact hpos)]
    intro k hk ha
    have hne : k ≠ 1 := by
      rintro rfl
      have hp := FirstIndex.passes (i := (1 : Slot)) hone
      simp only [Bool.and_eq_true, decide_eq_true_eq] at hp
      exact ha hp.2
    simp [dropConnection, hne, hc, hn, hk]
  · rw [← hidx] at hpos
    by_cases hch : t.findExistingChallengeIndex a ≥ 0
    · rw [removeClient_challenge hpos hch]
      exact .same hc hn
    · rw [removeClient_none hpos hch]
      exact .same hc hn

theorem sendDisconnects_self (s : Server C) (a : Address) (k : ShortSharedKey) (a' : Address) :
    (s.sendDisconnects a k a').self = s.removeClient a := by
  simp only [Server.sendDisconnects, written_disconnect]

theorem kickClient_keeps (h : Joined s a → s.findExistingConnectionIndex a = 1) :
    KeepsOthers s (s.kickClient a).self a := by
  unfold Server.kickClient
  dsimp only
  split
  · rw [sendDisconnects_self]
    exact removeClient_keeps rfl rfl h
  split
  · rw [sendDisconnects_self]
    exact removeClient_keeps rfl rfl h
  · exact .same rfl rfl

theorem listen_leave_keeps (hd : d.length ≤ receiveSize)
    (ht : classify s a d = .ok (some .disconnect))
    (h : Joined s a → s.findExistingConnectionIndex a = 1) :
    KeepsOthers s (s.listen (some (a, d)) seed p_size).self a := by
  obtain ⟨b, hl, -⟩ := listen_received s a seed p_size hd
  obtain ⟨hc, hn, -⟩ := prepared_connections s a
  rw [hl, ht, Outcome.catchStd_self]
  simp only [Server.dispatch, DisconnectPacket.read, EStateM.run_pure]
  split
  · exact removeClient_keeps hc hn h
  · exact .same hc hn

/-- Removal is exact when the address is found in slot 1 of the table it is in, and only then. -/
theorem removes_exactly_iff (s : Server C) (a : Address) :
    RemovesExactly s a ↔
      (Joined s a → s.findExistingConnectionIndex a = 1) ∧
      (¬ Joined s a → s.findExistingChallengeIndex a < 0 ∨ s.findExistingChallengeIndex a = 1) := by
  constructor
  · intro h
    constructor
    · intro hj
      obtain ⟨i, hi, he, hr⟩ := h.connection hj
      have hpos : s.findExistingConnectionIndex a > 0 := by
        have : i.val ≠ 0 := fun hz => hi (Fin.ext hz)
        omega
      have hp := FirstIndex.passes he
      simp only [Bool.and_eq_true] at hp
      rw [removeClient_connection hpos, dropConnection_exact hp.1] at hr
      rw [he, hr]
      rfl
    · intro hj
      by_cases hch : s.findExistingChallengeIndex a < 0
      · exact .inl hch
      · right
        obtain ⟨j, he, hc, -⟩ := challenge_found hch
        have hr := h.challenge hj j he
        have hn : ¬ s.findExistingConnectionIndex a > 0 := fun hp => hj (joined_of_index hp)
        rw [removeClient_challenge hn (by omega), dropChallenge_exact hc] at hr
        rw [he, hr]
        rfl
  · rintro ⟨hcon, hchal⟩
    constructor
    · intro hj
      have h1 := hcon hj
      exact ⟨1, by decide, h1, removeClient_connection (by rw [h1]; decide)⟩
    · intro hj j he
      have hn : ¬ s.findExistingConnectionIndex a > 0 := fun hp => hj (joined_of_index hp)
      have h1 : s.findExistingChallengeIndex a = 1 := by
        rcases hchal hj with h | h
        · omega
        · exact h
      obtain rfl : j = 1 := Fin.ext (by simp; omega)
      exact removeClient_challenge hn (by omega)
    · intro hj hch
      have hn : ¬ s.findExistingConnectionIndex a > 0 := fun hp => hj (joined_of_index hp)
      exact removeClient_none hn (by omega)
    · exact kickClient_keeps hcon
    · intro d seed p_size hd ht
      exact listen_leave_keeps hd ht hcon

/-- Of two clients, the second is kicked and the first is gone. -/
theorem removal_hits_slot_one : ¬ ∀ s : Server sample, Reachable s → ∀ a, RemovesExactly s a := by
  intro h
  have hrun : (Runs.run Server.step (Server.create sample)
      (sampleJoin (sampleAddress 1) 0 1 ++ sampleJoin (sampleAddress 2) 2 3)).map
      (fun s => decide (s.connected 1 = true ∧
        (s.connections 1).clientAddress ≠ sampleAddress 2 ∧
        (s.kickClient (sampleAddress 2)).self.connected 1 = false)) = some true := by
    decide +kernel
  obtain ⟨s, hs, hc⟩ := Option.map_eq_some_iff.mp hrun
  obtain ⟨hconn, ha, hgone⟩ := of_decide_eq_true hc
  have hkept := ((h s ⟨_, hs⟩ (sampleAddress 2)).kick 1 hconn ha).1
  rw [hgone] at hkept
  cases hkept

end GameNetwork.Proofs
