import GameNetwork.Proofs.Listen

namespace GameNetwork.Proofs

variable {C : Crypto} {s t : Server C} {sender : Address}

/-- What the slots of every reachable server have in common: slot 0 is the server's own, and
no challenge was ever put anywhere but in slot 1. -/
structure Tables (s : Server C) : Prop where
  own_connected : s.connected 0 = true
  own_address : (s.connections 0).clientAddress = ownAddress
  challenged_one : ∀ i, s.challenged i = true → i = 1

/-- The challenge slot holds a challenge. -/
def withChallenge (s : Server C) (challenge : ChallengeInfo C) : Server C :=
  { s with
    challenges := Function.update s.challenges 1 challenge
    challenged := Function.update s.challenged 1 true }

/-- The challenge slot is emptied. -/
def dropChallenge (s : Server C) : Server C :=
  { s with
    challenges := Function.update s.challenges 1 {}
    challenged := Function.update s.challenged 1 false }

@[simp] theorem withChallenge_connected (s : Server C) (challenge : ChallengeInfo C) :
    (withChallenge s challenge).connected = s.connected := rfl

@[simp] theorem withChallenge_connections (s : Server C) (challenge : ChallengeInfo C) :
    (withChallenge s challenge).connections = s.connections := rfl

@[simp] theorem withChallenge_challenged_one (s : Server C) (challenge : ChallengeInfo C) :
    (withChallenge s challenge).challenged 1 = true := by simp [withChallenge]

@[simp] theorem withChallenge_challenges_one (s : Server C) (challenge : ChallengeInfo C) :
    (withChallenge s challenge).challenges 1 = challenge := by simp [withChallenge]

@[simp] theorem dropChallenge_connected (s : Server C) :
    (dropChallenge s).connected = s.connected := rfl

/-- Connection slot 1 is emptied. -/
def dropConnection (s : Server C) : Server C :=
  { s with
    connected := Function.update s.connected 1 false
    connections := Function.update s.connections 1 {}
    numConnections := s.numConnections - 1 }

/-- The challenge moves to a connection slot. -/
def accepted (s : Server C) (j : Slot) : Server C :=
  { dropChallenge s with
    connected := Function.update s.connected j true
    connections := Function.update s.connections j
      { clientAddress := (s.challenges 1).clientAddress
        sharedKey := (s.challenges 1).resolved.sharedKey }
    numConnections := s.numConnections + 1 }

/-- The challenge a new request makes. -/
def newChallenge (sender : Address) (key : C.PublicKey) (seed : C.Seed) : ChallengeInfo C where
  clientAddress := sender
  clientPublicKey := key
  serverPrivateKey := C.privateKey seed
  serverPublicKey := C.publicKey seed
  sharedKeyFuture := some (C.sessionKey key (C.privateKey seed))

/-- The challenge with its key job started again. -/
def restarted (challenge : ChallengeInfo C) : ChallengeInfo C :=
  { challenge with
    sharedKeyFuture := some (C.sessionKey challenge.clientPublicKey challenge.serverPrivateKey) }

/-- The message of a `CONNECTION_ACCEPTED` for a slot. -/
def acceptMessage (j : Slot) : List UInt8 := header .connectionAccepted ++ Bytes.be 4 j.val

/-- The same server, or one whose challenge key has been fetched. -/
def Fetched (s t : Server C) : Prop := t = s ∨ t = s.resolveChallenge 1

/-- A challenge that is found is pending, in any server. -/
theorem challenge_found (h : ¬ s.findExistingChallengeIndex sender < 0) :
    ∃ i : Slot, s.findExistingChallengeIndex sender = i.val ∧ s.challenged i = true ∧
      (s.challenges i).clientAddress = sender := by
  rcases FirstIndex.cases_on
      (fun i => s.challenged i && decide ((s.challenges i).clientAddress = sender)) with
    ⟨i, he, hi, -⟩ | ⟨he, -⟩
  · simp only [Bool.and_eq_true, decide_eq_true_eq] at hi
    exact ⟨i, he, hi⟩
  · rw [Server.findExistingChallengeIndex, he] at h
    exact absurd (by decide) h

theorem Tables.challenge_cases (hT : Tables s) (a : Address) :
    (s.findExistingChallengeIndex a = 1 ∧ s.challenged 1 = true ∧
        (s.challenges 1).clientAddress = a) ∨
      (s.findExistingChallengeIndex a < 0 ∧
        ¬ (s.challenged 1 = true ∧ (s.challenges 1).clientAddress = a)) := by
  by_cases h : s.findExistingChallengeIndex a < 0
  · refine .inr ⟨h, fun h1 => ?_⟩
    have hnonneg : 0 ≤ s.findExistingChallengeIndex a :=
      FirstIndex.nonneg_iff.mpr ⟨1, by simp [h1]⟩
    omega
  · obtain ⟨i, he, hi, ha⟩ := challenge_found h
    obtain rfl := hT.challenged_one i hi
    exact .inl ⟨he, hi, ha⟩

theorem Tables.challenge_one (hT : Tables s) {a : Address}
    (h : ¬ s.findExistingChallengeIndex a < 0) : s.findExistingChallengeIndex a = 1 := by
  rcases hT.challenge_cases a with hc | hc
  · exact hc.1
  · exact absurd hc.1 h

theorem Tables.free_challenge (hT : Tables s) : s.findFreeChallengeIndex ≥ 0 := by
  refine FirstIndex.nonneg_iff.mpr ⟨0, ?_⟩
  cases h : s.challenged 0 with
  | false => rfl
  | true => exact absurd (hT.challenged_one 0 h) (by decide)

@[simp] theorem slot_one : slot 1 = 1 := rfl

theorem slot_val (j : Slot) : slot (j.val : Int) = j := by
  simp [slot, Fin.ofNat, Nat.mod_eq_of_lt j.isLt]

theorem resolved_resolved (challenge : ChallengeInfo C) :
    challenge.resolved.resolved = challenge.resolved := by
  cases h : challenge.sharedKeyFuture <;> simp [ChallengeInfo.resolved, h]

theorem resolved_fields (challenge : ChallengeInfo C) :
    challenge.resolved.clientAddress = challenge.clientAddress ∧
      challenge.resolved.clientPublicKey = challenge.clientPublicKey ∧
      challenge.resolved.serverPublicKey = challenge.serverPublicKey ∧
      challenge.resolved.serverPrivateKey = challenge.serverPrivateKey := by
  cases h : challenge.sharedKeyFuture <;> simp [ChallengeInfo.resolved, h]

/-- What fetching a key leaves alone. -/
structure Alike (s t : Server C) : Prop where
  connected : t.connected = s.connected
  connections : t.connections = s.connections
  challenged : t.challenged = s.challenged
  numConnections : t.numConnections = s.numConnections
  state : t.state = s.state
  other : ∀ i, i ≠ 1 → t.challenges i = s.challenges i
  resolved : (t.challenges 1).resolved = (s.challenges 1).resolved

theorem Fetched.alike (h : Fetched s t) : Alike s t := by
  rcases h with rfl | rfl
  · exact ⟨rfl, rfl, rfl, rfl, rfl, fun _ _ => rfl, rfl⟩
  · refine ⟨rfl, rfl, rfl, rfl, rfl, fun i hi => ?_, ?_⟩
    · simp [Server.resolveChallenge, hi]
    · rw [resolveChallenge_challenges, resolved_resolved]

theorem Alike.address (h : Alike s t) (i : Slot) :
    (t.challenges i).clientAddress = (s.challenges i).clientAddress := by
  by_cases hi : i = 1
  · rw [hi, ← (resolved_fields (t.challenges 1)).1, h.resolved, (resolved_fields _).1]
  · rw [h.other i hi]

/-- Fetching changes no other key of a challenge. -/
theorem Alike.keys (h : Alike s t) :
    (t.challenges 1).clientPublicKey = (s.challenges 1).clientPublicKey ∧
      (t.challenges 1).serverPublicKey = (s.challenges 1).serverPublicKey ∧
      (t.challenges 1).serverPrivateKey = (s.challenges 1).serverPrivateKey := by
  obtain ⟨-, hclient, hpublic, hprivate⟩ := resolved_fields (t.challenges 1)
  obtain ⟨-, hclient', hpublic', hprivate'⟩ := resolved_fields (s.challenges 1)
  rw [← hclient, ← hpublic, ← hprivate, h.resolved]
  exact ⟨hclient', hpublic', hprivate'⟩

theorem Alike.serverPublicKey (h : Alike s t) :
    (t.challenges 1).serverPublicKey = (s.challenges 1).serverPublicKey := h.keys.2.1

theorem Alike.findExistingConnectionIndex (h : Alike s t) (a : Address) :
    t.findExistingConnectionIndex a = s.findExistingConnectionIndex a := by
  rw [Server.findExistingConnectionIndex, h.connected, h.connections,
    Server.findExistingConnectionIndex]

theorem Alike.findExistingChallengeIndex (h : Alike s t) (a : Address) :
    t.findExistingChallengeIndex a = s.findExistingChallengeIndex a := by
  rw [Server.findExistingChallengeIndex, h.challenged]
  exact FirstIndex.congr fun i => by rw [h.address]

theorem Alike.findFreeConnectionIndex (h : Alike s t) :
    t.findFreeConnectionIndex = s.findFreeConnectionIndex := by
  rw [Server.findFreeConnectionIndex, h.connected, Server.findFreeConnectionIndex]

theorem Alike.tables (h : Alike s t) (hT : Tables s) : Tables t := by
  refine ⟨?_, ?_, ?_⟩
  · rw [h.connected]; exact hT.own_connected
  · rw [h.connections]; exact hT.own_address
  · rw [h.challenged]; exact hT.challenged_one

theorem Alike.update_challenges (h : Alike s t) (challenge : ChallengeInfo C) :
    Function.update t.challenges 1 challenge = Function.update s.challenges 1 challenge := by
  funext i
  by_cases hi : i = 1
  · subst hi; simp
  · simp [hi, h.other i hi]

theorem Alike.withChallenge (h : Alike s t) (challenge : ChallengeInfo C) :
    withChallenge t challenge = withChallenge s challenge := by
  simp only [Proofs.withChallenge, h.update_challenges, h.connected, h.connections,
    h.challenged, h.numConnections, h.state]

theorem Alike.dropChallenge (h : Alike s t) : dropChallenge t = dropChallenge s := by
  simp only [Proofs.dropChallenge, h.update_challenges, h.connected, h.connections,
    h.challenged, h.numConnections, h.state]

theorem Alike.accepted (h : Alike s t) (j : Slot) : accepted t j = accepted s j := by
  simp only [Proofs.accepted, h.dropChallenge, h.connected, h.connections, h.numConnections,
    h.address, h.resolved]

theorem Tables.fetched_prepared (hT : Tables s) (sender : Address) :
    Fetched s (prepared s sender) := by
  unfold prepared
  split
  · exact .inl rfl
  · split
    · exact .inl rfl
    · rename_i h
      rw [hT.challenge_one h]
      exact .inr rfl

end GameNetwork.Proofs
