import GameNetwork.Proofs.Tables

namespace GameNetwork.Proofs

variable {C : Crypto} {s t : Server C} {sender : Address} {d : List UInt8} {seed : C.Seed}
  {p_size : UInt32} {arrival : Arrival} {b : Buffer}

/-- Everything one call to `Listen` can do to the tables and put on the network. -/
inductive Heard (s : Server C) (seed : C.Seed) :
    Arrival → Server C → List Outgoing → Prop
  | quiet {arrival : Arrival} {t : Server C} (ht : Fetched s t) : Heard s seed arrival t []
  | challenge {sender : Address} {d : List UInt8} (hd : d.length ≤ receiveSize)
      (ht : classify s sender d = .ok (some .connectionRequest)) (hs : s.state = .lobby)
      (hk : 5 + C.roundedPublicKeySize ≤ d.length)
      (hc : s.findExistingChallengeIndex sender < 0) :
      Heard s seed (some (sender, d)) (withChallenge s (newChallenge sender (keyOf d) seed))
        [⟨sender, checked .challenge (C.publicKey seed).bytes⟩]
  | rechallenge {sender : Address} {d : List UInt8} {t : Server C} (hd : d.length ≤ receiveSize)
      (ht : classify s sender d = .ok (some .connectionRequest)) (hs : s.state = .lobby)
      (hk : 5 + C.roundedPublicKeySize ≤ d.length)
      (hc : s.findExistingChallengeIndex sender = 1) (hf : Fetched s t) :
      Heard s seed (some (sender, d)) (withChallenge s (restarted (t.challenges 1)))
        [⟨sender, checked .challenge (s.challenges 1).serverPublicKey.bytes⟩]
  | accept {sender : Address} {d : List UInt8} {j : Slot} (hd : d.length ≤ receiveSize)
      (ht : classify s sender d = .ok (some .challengeResponse)) (hs : s.state = .lobby)
      (hc : s.findExistingChallengeIndex sender = 1) (hj : s.findFreeConnectionIndex = j.val) :
      Heard s seed (some (sender, d)) (accepted s j)
        [⟨sender, sealed C (s.challenges 1).resolved.sharedKey (acceptMessage j)⟩]
  | disconnect {sender : Address} {d : List UInt8} (hd : d.length ≤ receiveSize)
      (ht : classify s sender d = .ok (some .disconnect))
      (hc : s.findExistingConnectionIndex sender > 0) :
      Heard s seed (some (sender, d)) (dropConnection s) []
  | withdraw {sender : Address} {d : List UInt8} (hd : d.length ≤ receiveSize)
      (ht : classify s sender d = .ok (some .disconnect))
      (hn : ¬ s.findExistingConnectionIndex sender > 0)
      (hc : s.findExistingChallengeIndex sender = 1) :
      Heard s seed (some (sender, d)) (dropChallenge s) []

theorem handleRequest_new (hT : Tables s) (hC : 5 + C.roundedPublicKeySize < 2 ^ 31)
    (key : C.PublicKey) (hc : s.findExistingChallengeIndex sender < 0) :
    s.handlePacketConnectionRequest ⟨key⟩ sender seed =
      { self := withChallenge s (newChallenge sender key seed)
        sent := [⟨sender, checked .challenge (C.publicKey seed).bytes⟩]
        result := .ok () } := by
  have hslot : slot (boolToInt (s.findFreeChallengeIndex ≥ 0)) = 1 := by
    simp [hT.free_challenge, boolToInt]
  have hne : boolToInt (s.findFreeChallengeIndex ≥ 0) ≠ 0 := by
    simp [hT.free_challenge, boolToInt]
  unfold Server.handlePacketConnectionRequest
  simp only [if_pos hc, if_pos hne, hslot, Server.sendChallenge, Function.update_self,
    Function.update_idem, written_challenge hC]
  rfl

theorem handleRequest_again (hT : Tables s) (hC : 5 + C.roundedPublicKeySize < 2 ^ 31)
    (key : C.PublicKey) (hc : s.findExistingChallengeIndex sender = 1) :
    s.handlePacketConnectionRequest ⟨key⟩ sender seed =
      { self := withChallenge s (restarted (s.challenges 1))
        sent := [⟨sender, checked .challenge (s.challenges 1).serverPublicKey.bytes⟩]
        result := .ok () } := by
  have hch : s.challenged 1 = true := by
    rcases hT.challenge_cases sender with h | h
    · exact h.2.1
    · omega
  have hup : Function.update s.challenged 1 true = s.challenged := by
    rw [← hch, Function.update_eq_self]
  unfold Server.handlePacketConnectionRequest
  simp only [hc, slot_one, Server.sendChallenge, written_challenge hC, withChallenge, hup, restarted]
  rfl

theorem handleResponse_none (hc : s.findExistingChallengeIndex sender < 0) :
    s.handlePacketChallengeResponse sender = { self := s, result := .ok () } := by
  have hc : ¬ s.findExistingChallengeIndex sender ≥ 0 := by omega
  unfold Server.handlePacketChallengeResponse
  simp only [if_neg hc]

theorem handleResponse_full (hc : s.findExistingChallengeIndex sender = 1)
    (hf : ¬ s.findFreeConnectionIndex > -1) :
    s.handlePacketChallengeResponse sender =
      { self := s.resolveChallenge 1, result := .ok () } := by
  have h1 : (1 : Int) ≥ 0 := by decide
  unfold Server.handlePacketChallengeResponse
  simp only [hc, slot_one, if_pos h1, if_neg hf]

theorem handleResponse_accept {j : Slot} (hc : s.findExistingChallengeIndex sender = 1)
    (hj : s.findFreeConnectionIndex = j.val) :
    s.handlePacketChallengeResponse sender =
      { self := accepted s j
        sent := [⟨sender, sealed C (s.challenges 1).resolved.sharedKey (acceptMessage j)⟩]
        result := .ok () } := by
  have h1 : (1 : Int) ≥ 0 := by decide
  have hj1 : s.findFreeConnectionIndex > -1 := by omega
  have hid : (UInt32.ofNat (uint32 (j.val : Int))).toNat = j.val := by
    have : j.val < 4 := j.isLt
    rw [uint32_eq (by omega) (by omega), Int.toNat_natCast, UInt32.toNat_ofNat']
    omega
  have hre : (s.resolveChallenge 1).challenges 1 = (s.challenges 1).resolved :=
    resolveChallenge_challenges s 1
  have hadd := (resolved_fields (s.challenges 1)).1
  unfold Server.handlePacketChallengeResponse
  simp only [hc, slot_one, if_pos h1, hre, hj, slot_val, Function.update_self,
    written_connectionAccepted, hid]
  simp only [Server.resolveChallenge, Function.update_idem, accepted, dropChallenge, hadd]
  rfl

theorem removeClient_connection (h : s.findExistingConnectionIndex sender > 0) :
    s.removeClient sender = dropConnection s := by
  simp [Server.removeClient, h, boolToInt, dropConnection]

theorem removeClient_challenge (hn : ¬ s.findExistingConnectionIndex sender > 0)
    (h : s.findExistingChallengeIndex sender ≥ 0) : s.removeClient sender = dropChallenge s := by
  simp [Server.removeClient, hn, h, boolToInt, dropChallenge]

theorem removeClient_none (hn : ¬ s.findExistingConnectionIndex sender > 0)
    (h : ¬ s.findExistingChallengeIndex sender ≥ 0) : s.removeClient sender = s := by
  simp [Server.removeClient, hn, h, boolToInt]

theorem request_read (hb : AtBody d b) (hk : 5 + C.roundedPublicKeySize ≤ d.length) :
    ∃ b', (ConnectionRequestPacket.read C).run b = .ok ⟨keyOf d⟩ b' := by
  obtain ⟨b', hr⟩ := readKey_atBody hb hk
  exact ⟨b', by rw [ConnectionRequestPacket.read, ok_bind hr]; rfl⟩

theorem request_short (hb : AtBody d b) (hk : d.length < 5 + C.roundedPublicKeySize) :
    ∃ e b', (ConnectionRequestPacket.read C).run b = .error e b' := by
  obtain ⟨e, b', hr⟩ := readKey_short hb hk
  exact ⟨e, b', by rw [ConnectionRequestPacket.read, error_bind hr]⟩

section
variable (hT : Tables s) (hd : d.length ≤ receiveSize)
include hT hd

/-- A request that is let through reaches its handler in the lobby. -/
theorem listen_request (ht : classify s sender d = .ok (some .connectionRequest))
    (hs : s.state = .lobby) (hk : 5 + C.roundedPublicKeySize ≤ d.length) :
    s.listen (some (sender, d)) seed p_size =
      (((prepared s sender).handlePacketConnectionRequest ⟨keyOf d⟩ sender seed).returning
        ({ ret := 0 } : Listened)).catchStd { ret := 0 } := by
  obtain ⟨b, hl, hb⟩ := listen_received s sender seed p_size hd
  obtain ⟨b', hr⟩ := request_read (hb _ ht (by simp)) hk
  have hp : (prepared s sender).state = .lobby := by
    rw [(hT.fetched_prepared sender).alike.state, hs]
  rw [hl, ht]
  simp only [Server.dispatch, if_pos hp, hr]

/-- A request from a sender without a challenge puts a new one in the challenge slot. -/
theorem listen_challenge (ht : classify s sender d = .ok (some .connectionRequest))
    (hs : s.state = .lobby) (hk : 5 + C.roundedPublicKeySize ≤ d.length)
    (hc : s.findExistingChallengeIndex sender < 0) :
    s.listen (some (sender, d)) seed p_size =
      { self := withChallenge s (newChallenge sender (keyOf d) seed)
        sent := [⟨sender, checked .challenge (C.publicKey seed).bytes⟩]
        result := .ok { ret := 0 } } := by
  have hf := (hT.fetched_prepared sender).alike
  have hC : 5 + C.roundedPublicKeySize < 2 ^ 31 := by rw [receiveSize] at hd; omega
  rw [listen_request hT hd ht hs hk, handleRequest_new (hf.tables hT) hC _
    (by rw [hf.findExistingChallengeIndex]; exact hc), hf.withChallenge]
  rfl

/-- A response that is let through with a slot free turns the challenge into a connection. -/
theorem listen_accept {j : Slot} (ht : classify s sender d = .ok (some .challengeResponse))
    (hs : s.state = .lobby) (hc : s.findExistingChallengeIndex sender = 1)
    (hj : s.findFreeConnectionIndex = j.val) :
    s.listen (some (sender, d)) seed p_size =
      { self := accepted s j
        sent := [⟨sender, sealed C (s.challenges 1).resolved.sharedKey (acceptMessage j)⟩]
        result := .ok { ret := 0 } } := by
  obtain ⟨b, hl, hb⟩ := listen_received s sender seed p_size hd
  have hf := (hT.fetched_prepared sender).alike
  have hp : (prepared s sender).state = .lobby := by rw [hf.state, hs]
  rw [← hf.findExistingChallengeIndex] at hc
  rw [← hf.findFreeConnectionIndex] at hj
  have hh := handleResponse_accept hc hj
  rw [hl, ht]
  simp only [Server.dispatch, if_pos hp, ChallengeResponsePacket.read, EStateM.run_pure, hh,
    hf.accepted, hf.resolved]
  rfl

end

/-- A `DISCONNECT` that is let through clears slot 1 of a table its sender is in. -/
theorem listen_disconnect (hd : d.length ≤ receiveSize)
    (ht : classify s sender d = .ok (some .disconnect))
    (hc : s.findExistingConnectionIndex sender > 0) :
    s.listen (some (sender, d)) seed p_size =
      { self := dropConnection s, result := .ok { ret := 0 } } := by
  obtain ⟨b, hl, hb⟩ := listen_received s sender seed p_size hd
  have hp : prepared s sender = s := by rw [prepared, if_pos hc]
  have hor : s.findExistingConnectionIndex sender > 0 ∨
      s.findExistingChallengeIndex sender > 0 := .inl hc
  rw [hl, ht]
  simp only [Server.dispatch, DisconnectPacket.read, EStateM.run_pure, hp, if_pos hor,
    removeClient_connection hc]
  rfl

/-- Where the sender only has a challenge, that is what it clears. -/
theorem listen_withdraw (hT : Tables s) (hd : d.length ≤ receiveSize)
    (ht : classify s sender d = .ok (some .disconnect))
    (hn : ¬ s.findExistingConnectionIndex sender > 0)
    (hc : s.findExistingChallengeIndex sender = 1) :
    s.listen (some (sender, d)) seed p_size =
      { self := dropChallenge s, result := .ok { ret := 0 } } := by
  obtain ⟨b, hl, -⟩ := listen_received s sender seed p_size hd
  have hf := (hT.fetched_prepared sender).alike
  have hci := hf.findExistingConnectionIndex sender
  have hch := hf.findExistingChallengeIndex sender
  have hor : (prepared s sender).findExistingConnectionIndex sender > 0 ∨
      (prepared s sender).findExistingChallengeIndex sender > 0 := .inr (by rw [hch, hc]; decide)
  rw [hl, ht]
  simp only [Server.dispatch, DisconnectPacket.read, EStateM.run_pure, if_pos hor,
    removeClient_challenge (by rw [hci]; exact hn) (by rw [hch, hc]; decide), hf.dropChallenge]
  rfl

/-- The cases of the `switch` that only report. -/
theorem dispatch_keeps (s : Server C) (sender : Address) (b : Buffer) (seed : C.Seed)
    (p_size : UInt32) {t : PacketType} (h1 : t ≠ .connectionRequest)
    (h2 : t ≠ .challengeResponse) (h3 : t ≠ .disconnect) :
    (s.dispatch t sender b seed p_size).self = s ∧ (s.dispatch t sender b seed p_size).sent = [] := by
  unfold Server.dispatch
  split
  · exact absurd rfl h1
  · exact absurd rfl h2
  · split
    · split
      · dsimp only
        split
        · split <;> exact ⟨rfl, rfl⟩
        · exact ⟨rfl, rfl⟩
      · exact ⟨rfl, rfl⟩
    · exact ⟨rfl, rfl⟩
  · exact absurd rfl h3
  · exact ⟨rfl, rfl⟩

/-- The rest of a call keeps the server as the verification left it, and sends nothing. -/
theorem heard_quiet (hT : Tables s) (sender : Address) {rest : Outcome (Server C) Listened}
    {value : Listened} (hl : s.listen arrival seed p_size = rest.catchStd value)
    (hr : rest.self = prepared s sender ∧ rest.sent = []) :
    Heard s seed arrival (s.listen arrival seed p_size).self
      (s.listen arrival seed p_size).sent := by
  rw [hl, Outcome.catchStd_self, Outcome.catchStd_sent, hr.1, hr.2]
  exact .quiet (hT.fetched_prepared sender)

section
variable (hT : Tables s) (hd : d.length ≤ receiveSize)
include hT hd

/-- Outside the lobby the handshake packets are not handled. -/
theorem heard_outside {t : PacketType} (ht : classify s sender d = .ok (some t))
    (htype : t = .connectionRequest ∨ t = .challengeResponse) (hs : s.state ≠ .lobby) :
    Heard s seed (some (sender, d)) (s.listen (some (sender, d)) seed p_size).self
      (s.listen (some (sender, d)) seed p_size).sent := by
  obtain ⟨b, hl, -⟩ := listen_received s sender seed p_size hd
  have hp : ¬ (prepared s sender).state = .lobby := by
    rw [(hT.fetched_prepared sender).alike.state]
    exact hs
  have hdispatch : (prepared s sender).dispatch t sender b seed p_size =
      (prepared s sender).returns 0 := by
    rcases htype with rfl | rfl
    · simp only [Server.dispatch, if_neg hp]
    · simp only [Server.dispatch, if_neg hp]
  rw [ht] at hl
  exact heard_quiet hT sender hl (by simp only [hdispatch]; exact ⟨rfl, rfl⟩)

theorem heard_request (ht : classify s sender d = .ok (some .connectionRequest)) :
    Heard s seed (some (sender, d)) (s.listen (some (sender, d)) seed p_size).self
      (s.listen (some (sender, d)) seed p_size).sent := by
  obtain ⟨b, hl, hb⟩ := listen_received s sender seed p_size hd
  have hf := hT.fetched_prepared sender
  by_cases hs : s.state = .lobby
  · by_cases hk : 5 + C.roundedPublicKeySize ≤ d.length
    · rcases hT.challenge_cases sender with ⟨hc, -⟩ | ⟨hc, -⟩
      · have hC : 5 + C.roundedPublicKeySize < 2 ^ 31 := by rw [receiveSize] at hd; omega
        rw [listen_request hT hd ht hs hk, handleRequest_again (hf.alike.tables hT) hC _
          (by rw [hf.alike.findExistingChallengeIndex]; exact hc), hf.alike.withChallenge,
          hf.alike.serverPublicKey]
        simp only [Outcome.catchStd_self, Outcome.catchStd_sent, Outcome.returning_self,
          Outcome.returning_sent]
        exact .rechallenge hd ht hs hk hc hf
      · rw [listen_challenge hT hd ht hs hk hc]
        exact .challenge hd ht hs hk hc
    · obtain ⟨e, b', hr⟩ := request_short (hb _ ht (by simp)) (C := C) (by omega)
      have hp : (prepared s sender).state = .lobby := by rw [hf.alike.state, hs]
      rw [ht] at hl
      refine heard_quiet hT sender hl ?_
      simp only [Server.dispatch, if_pos hp, hr]
      exact ⟨rfl, rfl⟩
  · exact heard_outside hT hd ht (.inl rfl) hs

theorem heard_response (ht : classify s sender d = .ok (some .challengeResponse)) :
    Heard s seed (some (sender, d)) (s.listen (some (sender, d)) seed p_size).self
      (s.listen (some (sender, d)) seed p_size).sent := by
  obtain ⟨b, hl, -⟩ := listen_received s sender seed p_size hd
  have hf := hT.fetched_prepared sender
  have hci := hf.alike.findExistingChallengeIndex sender
  by_cases hs : s.state = .lobby
  · have hp : (prepared s sender).state = .lobby := by rw [hf.alike.state, hs]
    have hresp : s.listen (some (sender, d)) seed p_size =
        (((prepared s sender).handlePacketChallengeResponse sender).returning
          ({ ret := 0 } : Listened)).catchStd { ret := 0 } := by
      rw [hl, ht]
      simp only [Server.dispatch, if_pos hp, ChallengeResponsePacket.read, EStateM.run_pure]
    rcases hT.challenge_cases sender with ⟨hc, -⟩ | ⟨hc, -⟩
    · rcases FirstIndex.cases_on (fun i => !s.connected i) with ⟨j, hj, -⟩ | ⟨hj, -⟩
      · rw [listen_accept hT hd ht hs hc hj]
        exact .accept hd ht hs hc hj
      · have hfull : ¬ (prepared s sender).findFreeConnectionIndex > -1 := by
          rw [hf.alike.findFreeConnectionIndex, Server.findFreeConnectionIndex, hj]
          decide
        rw [hresp, handleResponse_full (by rw [hci]; exact hc) hfull]
        simp only [Outcome.catchStd_self, Outcome.catchStd_sent, Outcome.returning_self,
          Outcome.returning_sent]
        refine .quiet (.inr ?_)
        rcases hf with hp | hp <;> rw [hp]
        simp only [Server.resolveChallenge, Function.update_self, Function.update_idem,
          resolved_resolved]
    · rw [handleResponse_none (by rw [hci]; exact hc)] at hresp
      exact heard_quiet hT sender hresp ⟨rfl, rfl⟩
  · exact heard_outside hT hd ht (.inr rfl) hs

theorem heard_disconnect (ht : classify s sender d = .ok (some .disconnect)) :
    Heard s seed (some (sender, d)) (s.listen (some (sender, d)) seed p_size).self
      (s.listen (some (sender, d)) seed p_size).sent := by
  obtain ⟨b, hl, -⟩ := listen_received s sender seed p_size hd
  have hf := hT.fetched_prepared sender
  have hci := hf.alike.findExistingConnectionIndex sender
  have hch := hf.alike.findExistingChallengeIndex sender
  by_cases hc : s.findExistingConnectionIndex sender > 0
  · rw [listen_disconnect hd ht hc]
    exact .disconnect hd ht hc
  rcases hT.challenge_cases sender with ⟨h1, -⟩ | ⟨h1, -⟩
  · rw [listen_withdraw hT hd ht hc h1]
    exact .withdraw hd ht hc h1
  · have hor : ¬ ((prepared s sender).findExistingConnectionIndex sender > 0 ∨
        (prepared s sender).findExistingChallengeIndex sender > 0) := by rw [hci, hch]; omega
    rw [ht] at hl
    refine heard_quiet hT sender hl ?_
    simp only [Server.dispatch, DisconnectPacket.read, EStateM.run_pure, if_neg hor]
    exact ⟨rfl, rfl⟩

end

/-- The cases of `Heard` are all there are. -/
theorem listen_heard (hT : Tables s) (arrival : Arrival) (seed : C.Seed) (p_size : UInt32) :
    Heard s seed arrival (s.listen arrival seed p_size).self
      (s.listen arrival seed p_size).sent := by
  rcases receive_cases arrival with hr | ⟨sender, d, rfl, hd⟩
  · rw [listen_failed hr]
    exact .quiet (hT.fetched_prepared {})
  obtain ⟨b, hl, -⟩ := listen_received s sender seed p_size hd
  cases ht : classify s sender d with
  | error e =>
    rw [ht] at hl
    exact heard_quiet hT sender hl ⟨rfl, rfl⟩
  | ok v =>
    cases v with
    | none =>
      rw [ht] at hl
      exact heard_quiet hT sender hl ⟨rfl, rfl⟩
    | some t =>
      by_cases h1 : t = .connectionRequest
      · exact heard_request hT hd (h1 ▸ ht)
      by_cases h2 : t = .challengeResponse
      · exact heard_response hT hd (h2 ▸ ht)
      by_cases h3 : t = .disconnect
      · exact heard_disconnect hT hd (h3 ▸ ht)
      rw [ht] at hl
      have hk := dispatch_keeps (prepared s sender) sender b seed p_size h1 h2 h3
      exact heard_quiet hT sender hl hk

end GameNetwork.Proofs
