import GameNetwork.Proofs.Sessions

namespace GameNetwork.Proofs

variable {C : Crypto} {s t : Server C} {sender : Address} {d : List UInt8}

/-- A well-formed request from an address that is in neither table. -/
def Requests (s : Server C) (sender : Address) (d : List UInt8) : Prop :=
  d.length ≤ receiveSize ∧ crcType d = .ok .connectionRequest ∧
    5 + C.roundedPublicKeySize ≤ d.length ∧
    s.findExistingConnectionIndex sender < 0 ∧ s.findExistingChallengeIndex sender < 0

/-- The new challenge takes a free slot, and the others stay where they are found. -/
def StoresChallenge (s t : Server C) (sender : Address) (d : List UInt8) (seed : C.Seed) : Prop :=
  (∃ i, s.challenged i = false ∧ t.challenged i = true ∧
    (t.challenges i).clientAddress = sender ∧ (t.challenges i).clientPublicKey = keyOf d ∧
    (t.challenges i).serverPublicKey = C.publicKey seed ∧
    (t.challenges i).serverPrivateKey = C.privateKey seed) ∧
  ∀ j, s.challenged j = true → (s.challenges j).clientAddress ≠ sender →
    t.challenged j = true ∧ t.challenges j = s.challenges j ∧
      t.findExistingChallengeIndex (s.challenges j).clientAddress = j.val

/-- A request is answered by a challenge in the challenge slot. -/
theorem Requests.listen (hT : Tables s) (hs : s.state = .lobby) (h : Requests s sender d)
    (seed : C.Seed) (p_size : UInt32) :
    s.listen (some (sender, d)) seed p_size =
      { self := withChallenge s (newChallenge sender (keyOf d) seed)
        sent := [⟨sender, checked .challenge (C.publicKey seed).bytes⟩]
        result := .ok { ret := 0 } } := by
  obtain ⟨hd, ht, hk, hc, hch⟩ := h
  refine listen_challenge hT hd ?_ hs hk hch
  rw [classify, if_neg (by omega), if_pos hch, ht]
  rfl

theorem stores_challenge_iff (hT : Tables s) (hs : s.state = .lobby) (h : Requests s sender d)
    (seed : C.Seed) (p_size : UInt32) :
    StoresChallenge s (s.listen (some (sender, d)) seed p_size).self sender d seed ↔
      s.challenged 1 = false := by
  rw [Requests.listen hT hs h seed p_size]
  constructor
  · rintro ⟨⟨i, hfree, hi, -⟩, -⟩
    obtain rfl := (withChallenge_tables hT _).challenged_one i hi
    exact hfree
  · intro h1
    constructor
    · exact ⟨1, h1, by simp [newChallenge]⟩
    · intro j hj _
      rw [hT.challenged_one j hj, h1] at hj
      cases hj

/-- The address a request is for, its datagram, and the seed its key pair is drawn from. -/
abbrev Request (C : Crypto) := Address × List UInt8 × C.Seed

def requestActions (p_size : UInt32) (requests : List (Request C)) : List (ServerAction C) :=
  requests.map fun r => .listen (some (r.1, r.2.1)) r.2.2 p_size

theorem Requests.other (h : Requests s sender d) (challenge : ChallengeInfo C)
    (hne : challenge.clientAddress ≠ sender) (hT : Tables s) :
    Requests (withChallenge s challenge) sender d := by
  obtain ⟨hd, ht, hk, hc, -⟩ := h
  refine ⟨hd, ht, hk, hc, ?_⟩
  rcases (withChallenge_tables hT challenge).challenge_cases sender with ⟨-, -, ha⟩ | ⟨h, -⟩
  · rw [withChallenge_challenges_one] at ha
    exact absurd ha hne
  · exact h

/-- After several requests the challenge slot holds the last one. -/
theorem requests_run (p_size : UInt32) (requests : List (Request C)) (hT : Tables s)
    (hs : s.state = .lobby) (hnd : (requests.map Prod.fst).Nodup) (hreq : ∀ r ∈ requests, Requests s r.1 r.2.1) :
    ∃ t, Runs.run Server.step s (requestActions p_size requests) = some t ∧ Tables t ∧
      ∀ hne : requests ≠ [], t.challenged 1 = true ∧
        (t.challenges 1).clientAddress = (requests.getLast hne).1 := by
  induction requests generalizing s with
  | nil => exact ⟨s, rfl, hT, fun hne => absurd rfl hne⟩
  | cons r requests ih =>
    have hl := Requests.listen hT hs (hreq r (by simp)) r.2.2 p_size
    have hstep : s.step (.listen (some (r.1, r.2.1)) r.2.2 p_size) =
        some (withChallenge s (newChallenge r.1 (keyOf r.2.1) r.2.2)) := by
      rw [Server.step, hl]
      rfl
    rw [List.map_cons, List.nodup_cons] at hnd
    obtain ⟨t, hrun, htT, hlast⟩ := ih (withChallenge_tables hT _) hs hnd.2 fun q hq =>
      (hreq q (by simp [hq])).other (newChallenge r.1 (keyOf r.2.1) r.2.2)
        (fun (he : r.1 = q.1) => hnd.1 (List.mem_map.mpr ⟨q, hq, he.symm⟩)) hT
    refine ⟨t, by rw [requestActions, List.map_cons, Runs.run_cons hstep]; exact hrun, htT,
      fun hne => ?_⟩
    cases requests with
    | nil =>
      cases hrun
      simp [newChallenge]
    | cons q requests => simpa using hlast (by simp)

/-- A request from an unknown address keeps the other challenges exactly when the challenge
slot is free, and of several clients only one has a challenge pending. -/
theorem concurrent_challenges_iff (hs : Reachable s) (hl : s.state = .lobby) (p_size : UInt32) :
    (∀ sender d seed, Requests s sender d → (∃ i, s.challenged i = false) →
      (StoresChallenge s (s.listen (some (sender, d)) seed p_size).self sender d seed ↔
        s.challenged 1 = false)) ∧
    ∀ requests : List (Request C), (requests.map Prod.fst).Nodup →
      (∀ r ∈ requests, Requests s r.1 r.2.1) →
      ∃ t, Runs.run Server.step s (requestActions p_size requests) = some t ∧
        ((∀ r ∈ requests, t.findExistingChallengeIndex r.1 ≥ 0) ↔ requests.length ≤ 1) := by
  constructor
  · intro sender d seed h _
    exact stores_challenge_iff hs.tables hl h seed p_size
  intro requests hnd hreq
  obtain ⟨t, hrun, hT, hlast⟩ := requests_run p_size requests hs.tables hl hnd hreq
  refine ⟨t, hrun, ?_⟩
  constructor
  · intro h
    match requests, hnd, hlast with
    | [], _, _ => simp
    | [r], _, _ => simp
    | a :: b :: rs, hnd, hlast =>
      -- two pending requests would both be the last one
      have ha := (hT.challenged_at (hT.challenge_slot (h a (by simp)))).2
      have hb := (hT.challenged_at (hT.challenge_slot (h b (by simp)))).2
      rw [List.map_cons, List.map_cons, List.nodup_cons] at hnd
      exact absurd (by rw [← ha, hb]; simp) hnd.1
  · intro h r hr
    obtain ⟨q, rfl⟩ := List.length_eq_one_iff.mp (Nat.le_antisymm h (List.length_pos_of_mem hr))
    obtain rfl := List.mem_singleton.mp hr
    obtain ⟨h1, ha⟩ := hlast (by simp)
    rcases hT.challenge_cases r.1 with ⟨hc, -⟩ | ⟨-, hn⟩
    · omega
    · exact absurd ⟨h1, ha⟩ hn

theorem concurrent_challenges_sample :
    StoresChallenge (Server.create sample)
      ((Server.create sample).listen (some (sampleAddress 1,
        checked .connectionRequest (sample.publicKey (0 : Fin 8)).bytes)) (1 : Fin 8) 0).self
      (sampleAddress 1) (checked .connectionRequest (sample.publicKey (0 : Fin 8)).bytes)
      (1 : Fin 8) := by
  have hreq : Requests (Server.create sample) (sampleAddress 1)
      (checked .connectionRequest (sample.publicKey (0 : Fin 8)).bytes) := by
    unfold Requests
    decide +kernel
  have hiff := (concurrent_challenges_iff ⟨[], rfl⟩ rfl 0).1 _ _ (1 : Fin 8) hreq ⟨0, rfl⟩
  exact hiff.mpr rfl

/-- The challenge of one client is lost to the request of the next. -/
theorem challenge_overwritten :
    ¬ ∀ s : Server sample, Reachable s → s.state = .lobby → ∀ (sender : Address) (d : List UInt8)
      (seed : sample.Seed) (p_size : UInt32), Requests s sender d →
      (∃ i, s.challenged i = false) →
      StoresChallenge s (s.listen (some (sender, d)) seed p_size).self sender d seed := by
  intro h
  have hrun : (Runs.run Server.step (Server.create sample)
      [sampleRequest (sampleAddress 1) 0 1]).map
      (fun s =>
        let d := checked .connectionRequest (sampleKey 2).bytes
        decide (s.state = .lobby ∧ s.challenged 0 = false ∧ s.challenged 1 = true ∧
          d.length ≤ receiveSize ∧ crcType d = .ok .connectionRequest ∧
          5 + sample.roundedPublicKeySize ≤ d.length ∧
          s.findExistingConnectionIndex (sampleAddress 2) < 0 ∧
          s.findExistingChallengeIndex (sampleAddress 2) < 0)) = some true := by decide +kernel
  obtain ⟨s, hs, hc⟩ := Option.map_eq_some_iff.mp hrun
  obtain ⟨hl, h0, h1, hreq⟩ := of_decide_eq_true hc
  have hR : Reachable s := ⟨_, hs⟩
  have hst := h s hR hl (sampleAddress 2) _ (3 : Fin 8) 0 hreq ⟨0, h0⟩
  rw [(stores_challenge_iff hR.tables hl hreq _ _).mp hst] at h1
  cases h1

end GameNetwork.Proofs
