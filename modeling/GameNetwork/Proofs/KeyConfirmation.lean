import GameNetwork.Proofs.Sessions

namespace GameNetwork.Proofs

variable {C : Crypto} {s t : Server C} {sender : Address} {d : List UInt8} {k : ShortSharedKey}

/-- The datagram ends in the HMAC of what stands before it. -/
def EndsInHmac (C : Crypto) (k : ShortSharedKey) (d : List UInt8) : Prop :=
  32 < d.length ∧ d = sealed C k (d.take (d.length - 32))

instance : Decidable (EndsInHmac C k d) := inferInstanceAs (Decidable (_ ∧ _))

theorem endsInHmac_of_type {t : PacketType} (h : hmacType C k d = t) (ht : t ≠ .invalidPacket) :
    EndsInHmac C k d := by
  have hne : hmacType C k d ≠ .invalidPacket := by rw [h]; exact ht
  exact ⟨(hmacType_ne_invalid hne).1, (hmacType_ne_invalid hne).2.1⟩

/-- Every slot opened between two states holds a key the datagram is sealed with. -/
def KeyConfirmed (s t : Server C) (d : List UInt8) : Prop :=
  ∀ i, s.connected i = false → t.connected i = true →
    EndsInHmac C (t.connections i).sharedKey d

/-- A connected sender with a challenge pending answers it under the key of its connection
instead, while a slot is free. -/
def AnswersElsewhere (s : Server C) (sender : Address) (d : List UInt8) : Prop :=
  d.length ≤ receiveSize ∧ s.state = .lobby ∧ s.findExistingConnectionIndex sender > 0 ∧
    hmacType C (s.connections (slot (s.findExistingConnectionIndex sender))).sharedKey d =
      .challengeResponse ∧
    s.findExistingChallengeIndex sender ≥ 0 ∧ s.findFreeConnectionIndex ≥ 0 ∧
    ¬ EndsInHmac C
      (s.challenges (slot (s.findExistingChallengeIndex sender))).resolved.sharedKey d

theorem AnswersElsewhere.unconfirmed {seed : C.Seed} {p_size : UInt32} (hT : Tables s)
    (h : AnswersElsewhere s sender d) :
    ¬ KeyConfirmed s (s.listen (some (sender, d)) seed p_size).self d := by
  obtain ⟨hd, hs, hc, ht, hch, hf, hne⟩ := h
  have h1 := hT.challenge_slot hch
  obtain ⟨j, hj, hfree⟩ := free_slot hf
  rw [h1, slot_one] at hne
  rw [listen_accept hT hd (by rw [classify_connected hc, ht]) hs h1 hj]
  intro h
  exact hne (by simpa [accepted] using h j hfree (by simp [accepted]))

/-- A slot is opened by a response alone, and its key is the one of the challenge. -/
theorem Heard.opened {seed : C.Seed} {arrival : Arrival} {sent : List Outgoing}
    (h : Heard s seed arrival t sent) {i : Slot} (hi : s.connected i = false)
    (ht : t.connected i = true) :
    ∃ sender d, arrival = some (sender, d) ∧ d.length ≤ receiveSize ∧ s.state = .lobby ∧
      classify s sender d = .ok (some .challengeResponse) ∧
      s.findExistingChallengeIndex sender = 1 ∧ s.findFreeConnectionIndex = i.val ∧
      t = accepted s i := by
  cases h with
  | quiet hf => rw [hf.alike.connected, hi] at ht; cases ht
  | challenge => rw [withChallenge_connected, hi] at ht; cases ht
  | rechallenge => rw [withChallenge_connected, hi] at ht; cases ht
  | withdraw => rw [dropChallenge_connected, hi] at ht; cases ht
  | disconnect =>
    by_cases h1 : i = 1
    · simp [dropConnection, h1] at ht
    · simp [dropConnection, h1, hi] at ht
  | @accept sender d j hd hcl hs hc hj =>
    by_cases hij : i = j
    · subst hij
      exact ⟨sender, d, rfl, hd, hs, hcl, hc, hj, rfl⟩
    · simp [accepted, hij, hi] at ht

/-- A call opens slots for confirmed keys only, unless it is an answer under another key. -/
theorem key_confirmed_iff (hs : Reachable s) (sender : Address) (d : List UInt8) (seed : C.Seed)
    (p_size : UInt32) :
    KeyConfirmed s (s.listen (some (sender, d)) seed p_size).self d ↔
      ¬ AnswersElsewhere s sender d := by
  have hT := hs.tables
  constructor
  · intro h hbad
    exact hbad.unconfirmed hT h
  intro hgood i hi ht
  obtain ⟨_, _, he, hd, hl, hcl, hc, hj, hacc⟩ :=
    (listen_heard hT (some (sender, d)) seed p_size).opened hi ht
  obtain ⟨rfl, rfl⟩ := Prod.mk.inj (Option.some.inj he)
  have hkey : ((s.listen (some (sender, d)) seed p_size).self.connections i).sharedKey =
      (s.challenges 1).resolved.sharedKey := by rw [hacc]; simp [accepted]
  rw [hkey]
  by_cases hci : s.findExistingConnectionIndex sender > 0
  · rw [classify_connected hci] at hcl
    by_contra hne
    refine hgood ⟨hd, hl, hci, by simpa using hcl, by omega, by omega, ?_⟩
    rw [hc, slot_one]
    exact hne
  · rw [classify_challenged hci hc] at hcl
    exact endsInHmac_of_type (t := .challengeResponse) (by simpa using hcl) (by simp)

/-- The response to a challenge opens slot 1 for the key it is sealed with. -/
theorem key_confirmed_sample :
    let d := sealed sample (sampleSession 0 1) (header .challengeResponse)
    ∃ s, Runs.run Server.step (Server.create sample) [sampleRequest (sampleAddress 1) 0 1] =
        some s ∧
      s.connected 1 = false ∧
      (s.listen (some (sampleAddress 1, d)) (2 : Fin 8) 0).self.connected 1 = true ∧
      KeyConfirmed s (s.listen (some (sampleAddress 1, d)) (2 : Fin 8) 0).self d := by
  intro d
  have hrun : (Runs.run Server.step (Server.create sample)
      [sampleRequest (sampleAddress 1) 0 1]).map
      (fun s => decide (s.connected 1 = false ∧
        (s.listen (some (sampleAddress 1, d)) (2 : Fin 8) 0).self.connected 1 = true ∧
        ¬ s.findExistingConnectionIndex (sampleAddress 1) > 0)) = some true := by decide +kernel
  obtain ⟨s, hs, hd⟩ := Option.map_eq_some_iff.mp hrun
  obtain ⟨hfree, hopen, hunknown⟩ := of_decide_eq_true hd
  exact ⟨s, hs, hfree, hopen,
    (key_confirmed_iff ⟨_, hs⟩ (sampleAddress 1) d (2 : Fin 8) 0).mpr fun h => hunknown h.2.2.1⟩

/-- The client asks again under its own key, and answers with the key it already has. -/
theorem key_not_confirmed :
    ¬ ∀ s : Server sample, Reachable s → ∀ (sender : Address) (d : List UInt8)
      (seed : sample.Seed) (p_size : UInt32),
      KeyConfirmed s (s.listen (some (sender, d)) seed p_size).self d := by
  intro h
  have hrun : (Runs.run Server.step (Server.create sample)
      (sampleJoin (sampleAddress 1) 0 1 ++ [sampleHears (sampleAddress 1)
        (sealed sample (sampleSession 0 1)
          (header .connectionRequest ++ (sampleKey 2).bytes)) 3])).map
      (fun s =>
        let d := sealed sample (sampleSession 0 1) (header .challengeResponse)
        let t := (s.listen (some (sampleAddress 1, d)) (0 : Fin 8) 0).self
        decide (s.connected 2 = false ∧ t.connected 2 = true ∧
          ¬ EndsInHmac sample (t.connections 2).sharedKey d)) = some true := by
    decide +kernel
  obtain ⟨s, hs, hc⟩ := Option.map_eq_some_iff.mp hrun
  obtain ⟨hfree, hopen, hne⟩ := of_decide_eq_true hc
  exact hne (h s ⟨_, hs⟩ _ _ _ _ 2 hfree hopen)

end GameNetwork.Proofs
