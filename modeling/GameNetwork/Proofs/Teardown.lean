import GameNetwork.Proofs.Agreement
import GameNetwork.Proofs.Sessions

namespace GameNetwork.Proofs

variable {C : Crypto} {s t : Server C} {a : Address} {i : Slot}

/-- A `DISCONNECT` for an address, sealed under a key. -/
def farewell (C : Crypto) (a : Address) (k : ShortSharedKey) : Outgoing :=
  ⟨a, sealed C k (header .disconnect)⟩

theorem kickClient_connection {j : Slot} (h : s.findExistingConnectionIndex a = j.val)
    (hj : j ≠ 0) :
    s.kickClient a =
      { self := dropConnection s
        sent := List.replicate 10
          (farewell C (s.connections j).clientAddress (s.connections j).sharedKey)
        result := .ok () } := by
  have hpos : s.findExistingConnectionIndex a > 0 := by
    have : j.val ≠ 0 := fun hz => hj (Fin.ext hz)
    omega
  unfold Server.kickClient
  simp only [if_pos hpos, Server.sendDisconnects, written_disconnect, removeClient_connection hpos]
  rw [h, slot_val]
  rfl

theorem kickClient_challenge (hT : Tables s) (hn : ¬ s.findExistingConnectionIndex a > 0)
    (hc : s.findExistingChallengeIndex a = 1) :
    s.kickClient a =
      { self := dropChallenge s
        sent := List.replicate 10 (farewell C a (s.challenges 1).resolved.sharedKey)
        result := .ok () } := by
  have hf : Alike s (s.resolveChallenge 1) := Fetched.alike (.inr rfl)
  have ha : (s.challenges 1).resolved.clientAddress = a := by
    rw [(resolved_fields _).1, (hT.challenged_at hc).2]
  unfold Server.kickClient
  simp only [if_neg hn, hc, slot_one, Server.sendDisconnects, written_disconnect,
    resolveChallenge_challenges, ha]
  rw [if_pos (by decide), removeClient_challenge (by rw [hf.findExistingConnectionIndex]; exact hn)
    (by rw [hf.findExistingChallengeIndex, hc]; decide), hf.dropChallenge]
  rfl

theorem kickClient_unknown (hn : ¬ s.findExistingConnectionIndex a > 0)
    (hc : s.findExistingChallengeIndex a < 0) :
    s.kickClient a = { self := s, result := .ok () } := by
  unfold Server.kickClient
  simp only [if_neg hn, if_neg (show ¬ s.findExistingChallengeIndex a > 0 by omega)]

theorem andThen_ok {σ α : Type} {u : σ} {sent : List Outgoing} (rest : σ → Outcome σ α) :
    (Outcome.andThen { self := u, sent := sent, result := .ok () } rest) =
      (rest u).after sent := rfl

/-- The `DISCONNECT` for the client of a slot. -/
def connectionFarewell (s : Server C) (i : Slot) : List Outgoing :=
  if s.connected i then
    [farewell C (s.connections i).clientAddress (s.connections i).sharedKey] else []

/-- The `DISCONNECT` for the challenge of a slot. -/
def challengeFarewell (s : Server C) (i : Slot) : List Outgoing :=
  if s.challenged i then
    [farewell C (s.challenges i).clientAddress (s.challenges i).resolved.sharedKey] else []

/-- A `DISCONNECT` for everybody in the tables but the server itself. -/
def farewells (s : Server C) : List Outgoing :=
  ([1, 2, 3] : List Slot).flatMap fun i => connectionFarewell s i ++ challengeFarewell s i

/-- Each of them ten times. -/
def tenfold (outs : List Outgoing) : List Outgoing := outs.flatMap (List.replicate 10)

@[simp] theorem tenfold_nil : tenfold [] = [] := rfl

theorem tenfold_append (xs ys : List Outgoing) : tenfold (xs ++ ys) = tenfold xs ++ tenfold ys :=
  List.flatMap_append

theorem tenfold_singleton (out : Outgoing) : tenfold [out] = List.replicate 10 out := by
  simp [tenfold]

theorem dropConnection_single (h : OneSession s) : OneSession (dropConnection s) := by
  refine h.mono (fun j hj => ?_) (fun j hj => ⟨hj, rfl⟩)
  by_cases h1 : j = 1
  · simp [dropConnection, h1] at hj
  · simpa [dropConnection, h1] using hj

theorem dropChallenge_single (h : OneSession s) : OneSession (dropChallenge s) := by
  refine h.mono (fun j hj => ⟨hj, rfl⟩) (fun j hj => ?_)
  by_cases h1 : j = 1
  · simp [dropChallenge, h1] at hj
  · simpa [dropChallenge, h1] using hj

theorem OneSession.index (h : OneSession s) (hc : s.connected i = true) :
    s.findExistingConnectionIndex (s.connections i).clientAddress = i.val := by
  apply FirstIndex.eq_of_unique (by simp [hc])
  intro j hj
  simp only [Bool.and_eq_true, decide_eq_true_eq] at hj
  exact h.connected j i hj.1 hc hj.2

/-- What is left once the loop has passed a slot. -/
def cleared (s : Server C) (i : Slot) : Server C :=
  let t := if s.connected i then dropConnection s else s
  if s.challenged i then dropChallenge t else t

section
variable (hT : Tables s) (h1 : OneSession s)
include hT h1

omit hT in
/-- The client of a slot is dismissed, and slot 1 is cleared. -/
theorem kick_connected (hi : i ≠ 0) :
    (if s.connected i then s.kickClient (s.connections i).clientAddress
      else { self := s, result := .ok () }) =
      { self := if s.connected i then dropConnection s else s
        sent := tenfold (connectionFarewell s i)
        result := .ok () } := by
  by_cases hc : s.connected i = true
  · rw [if_pos hc, kickClient_connection (h1.index hc) hi, connectionFarewell, if_pos hc,
      if_pos hc, tenfold_singleton]
  · rw [if_neg hc, connectionFarewell, if_neg hc, if_neg hc]
    rfl

/-- So is whoever has the challenge. -/
theorem kick_challenged :
    (if s.challenged i then s.kickClient (s.challenges i).clientAddress
      else { self := s, result := .ok () }) =
      { self := if s.challenged i then dropChallenge s else s
        sent := tenfold (challengeFarewell s i)
        result := .ok () } := by
  by_cases hc : s.challenged i = true
  · obtain rfl := hT.challenged_one i hc
    have hn : ¬ s.findExistingConnectionIndex (s.challenges 1).clientAddress > 0 := by
      intro hpos
      obtain ⟨j, -, hj, hcj, ha⟩ := connection_found hpos
      exact h1.apart j 1 hj hcj hc ha
    have hidx : s.findExistingChallengeIndex (s.challenges 1).clientAddress = 1 := by
      rcases hT.challenge_cases (s.challenges 1).clientAddress with h | h
      · exact h.1
      · exact absurd ⟨hc, rfl⟩ h.2
    rw [if_pos hc, kickClient_challenge hT hn hidx, challengeFarewell, if_pos hc,
      if_pos hc, tenfold_singleton]
  · rw [if_neg hc, challengeFarewell, if_neg hc, if_neg hc]
    rfl

/-- One turn of the destructor's loop past slot 0. -/
theorem destroySlot_eq (hi : i ≠ 0) :
    s.destroySlot i =
      { self := cleared s i
        sent := tenfold (connectionFarewell s i ++ challengeFarewell s i)
        result := .ok () } := by
  rw [Server.destroySlot, kick_connected h1 hi, andThen_ok, cleared, tenfold_append]
  by_cases hc : s.connected i = true
  · simp only [if_pos hc]
    exact congrArg (Outcome.after _)
      (kick_challenged (dropConnection_tables hT) (dropConnection_single h1))
  · simp only [if_neg hc]
    exact congrArg (Outcome.after _) (kick_challenged hT h1)

omit h1 in
theorem cleared_tables : Tables (cleared s i) := by
  unfold cleared
  by_cases hc : s.connected i = true <;> by_cases hch : s.challenged i = true <;>
    simp only [hc, hch, if_true, if_false, Bool.false_eq_true]
  · exact dropChallenge_tables (dropConnection_tables hT)
  · exact dropConnection_tables hT
  · exact dropChallenge_tables hT
  · exact hT

omit hT in
theorem cleared_single : OneSession (cleared s i) := by
  unfold cleared
  by_cases hc : s.connected i = true <;> by_cases hch : s.challenged i = true <;>
    simp only [hc, hch, if_true, if_false, Bool.false_eq_true]
  · exact dropChallenge_single (dropConnection_single h1)
  · exact dropConnection_single h1
  · exact dropChallenge_single h1
  · exact h1

end

theorem connectionFarewell_congr (hc : t.connected i = s.connected i)
    (hn : t.connections i = s.connections i) : connectionFarewell t i = connectionFarewell s i := by
  rw [connectionFarewell, hc, hn, connectionFarewell]

theorem challengeFarewell_congr (hc : t.challenged i = s.challenged i)
    (hn : t.challenges i = s.challenges i) : challengeFarewell t i = challengeFarewell s i := by
  rw [challengeFarewell, hc, hn, challengeFarewell]

/-- Only slot 1 is cleared: the other slots are dismissed as they were. -/
theorem cleared_farewell {j : Slot} (hj : j ≠ 1) :
    connectionFarewell (cleared s i) j ++ challengeFarewell (cleared s i) j =
      connectionFarewell s j ++ challengeFarewell s j := by
  have hkeep : (cleared s i).connected j = s.connected j ∧
      (cleared s i).connections j = s.connections j ∧
      (cleared s i).challenged j = s.challenged j ∧
      (cleared s i).challenges j = s.challenges j := by
    unfold cleared
    by_cases hc : s.connected i = true <;> by_cases hch : s.challenged i = true <;>
      simp [hc, hch, dropConnection, dropChallenge, hj]
  rw [connectionFarewell_congr hkeep.1 hkeep.2.1, challengeFarewell_congr hkeep.2.2.1 hkeep.2.2.2]

/-- The loop over slots past 1 dismisses everybody in them. -/
theorem destroySlots_past {is : List Slot} (his : ∀ i ∈ is, i ≠ 0 ∧ i ≠ 1) (hT : Tables s)
    (h1 : OneSession s) :
    (Server.destroySlots is s).result = .ok () ∧ (Server.destroySlots is s).sent =
      tenfold (is.flatMap fun i => connectionFarewell s i ++ challengeFarewell s i) := by
  induction is generalizing s with
  | nil => exact ⟨rfl, rfl⟩
  | cons i is ih =>
    obtain ⟨hi, -⟩ := his i List.mem_cons_self
    have hrest := ih (fun j hj => his j (List.mem_cons_of_mem i hj))
      (cleared_tables hT (i := i)) (cleared_single h1 (i := i))
    have hsame : (is.flatMap fun j => connectionFarewell (cleared s i) j ++
        challengeFarewell (cleared s i) j) =
        is.flatMap fun j => connectionFarewell s j ++ challengeFarewell s j :=
      List.flatMap_congr fun j hj => cleared_farewell (his j (List.mem_cons_of_mem i hj)).2
    rw [hsame] at hrest
    rw [Server.destroySlots, destroySlot_eq hT h1 hi, andThen_ok]
    refine ⟨hrest.1, ?_⟩
    rw [List.flatMap_cons, tenfold_append _ (List.flatMap _ _), ← hrest.2]
    rfl

/-- Without its challenge, slot 1 has only its client to dismiss. -/
theorem dropChallenge_farewells (s : Server C) :
    farewells (dropChallenge s) = connectionFarewell s 1 ++
      ([2, 3] : List Slot).flatMap fun j => connectionFarewell s j ++ challengeFarewell s j := by
  have hconn (j : Slot) : connectionFarewell (dropChallenge s) j = connectionFarewell s j :=
    connectionFarewell_congr (s := s) rfl rfl
  have hnone : challengeFarewell (dropChallenge s) 1 = [] := by
    simp [challengeFarewell, dropChallenge]
  have hother : (([2, 3] : List Slot).flatMap fun j => connectionFarewell (dropChallenge s) j ++
      challengeFarewell (dropChallenge s) j) =
      ([2, 3] : List Slot).flatMap fun j => connectionFarewell s j ++ challengeFarewell s j := by
    refine List.flatMap_congr fun j hj => ?_
    have hj1 : j ≠ 1 := by rintro rfl; revert hj; decide
    rw [hconn, challengeFarewell_congr (s := s) (by simp [dropChallenge, hj1])
      (by simp [dropChallenge, hj1])]
  rw [farewells, List.flatMap_cons, hnone, List.append_nil, hother, hconn]

/-- The loop from slot 1 on. -/
theorem destroySlots_clients (hT : Tables s) (h1 : OneSession s) :
    (Server.destroySlots [1, 2, 3] s).result = .ok () ∧
      (Server.destroySlots [1, 2, 3] s).sent = tenfold (farewells s) := by
  have hrest := destroySlots_past (show ∀ i ∈ ([2, 3] : List Slot), i ≠ 0 ∧ i ≠ 1 by decide)
    (cleared_tables hT (i := 1)) (cleared_single h1 (i := 1))
  have hsame : (([2, 3] : List Slot).flatMap fun j => connectionFarewell (cleared s 1) j ++
      challengeFarewell (cleared s 1) j) =
      ([2, 3] : List Slot).flatMap fun j => connectionFarewell s j ++ challengeFarewell s j :=
    List.flatMap_congr fun j hj => cleared_farewell (by rintro rfl; revert hj; decide)
  rw [hsame] at hrest
  rw [Server.destroySlots, destroySlot_eq hT h1 (by decide), andThen_ok]
  refine ⟨hrest.1, ?_⟩
  rw [farewells, List.flatMap_cons, tenfold_append _ (List.flatMap _ _), ← hrest.2]
  rfl

/-- Slot 0 dismisses a challenge that was made for the server's own address, and nobody else. -/
theorem destroySlot_own (hT : Tables s) :
    s.destroySlot 0 =
      if s.challenged 1 = true ∧ (s.challenges 1).clientAddress = ownAddress then
        { self := dropChallenge s
          sent := tenfold (challengeFarewell s 1)
          result := .ok () }
      else { self := s, result := .ok () } := by
  have hown : ¬ s.findExistingConnectionIndex ownAddress > 0 := by rw [hT.own_index]; decide
  have hnone (u : Server C) (hu : Tables u) : u.challenged 0 = false := by
    by_contra h
    exact absurd (hu.challenged_one 0 (by simpa using h)) (by decide)
  rw [Server.destroySlot, if_pos hT.own_connected, hT.own_address]
  rcases hT.challenge_cases ownAddress with ⟨hc, hch⟩ | ⟨hc, hch⟩
  · rw [kickClient_challenge hT hown hc, andThen_ok, if_pos hch,
      if_neg (by rw [hnone _ (dropChallenge_tables hT)]; decide), challengeFarewell, if_pos hch.1,
      tenfold_singleton, hch.2]
    rfl
  · rw [kickClient_unknown hown hc, andThen_ok, if_neg hch, if_neg (by rw [hnone s hT]; decide)]
    rfl

/-- The whole loop. A challenge for the server's own address comes before its place. -/
theorem destroy_perm (hT : Tables s) (h1 : OneSession s) :
    s.destroy.result = .ok () ∧ s.destroy.sent.Perm (tenfold (farewells s)) := by
  rw [Server.destroy, Server.destroySlots, destroySlot_own hT]
  by_cases hown : s.challenged 1 = true ∧ (s.challenges 1).clientAddress = ownAddress
  · -- the challenge comes first, and slot 1 has only its client left
    obtain ⟨hok, hsent⟩ := destroySlots_clients (dropChallenge_tables hT) (dropChallenge_single h1)
    rw [if_pos hown, andThen_ok]
    refine ⟨hok, ?_⟩
    change (tenfold (challengeFarewell s 1) ++ _).Perm (tenfold (farewells s))
    rw [hsent, dropChallenge_farewells, farewells, List.flatMap_cons, ← tenfold_append,
      ← List.append_assoc]
    exact (List.perm_append_comm.append_right _).flatMap_right _
  · obtain ⟨hok, hsent⟩ := destroySlots_clients hT h1
    rw [if_neg hown, andThen_ok]
    refine ⟨hok, ?_⟩
    change ([] ++ _ : List Outgoing).Perm (tenfold (farewells s))
    rw [hsent, List.nil_append]

/-- The destructor dismisses everybody in the tables with ten `DISCONNECT`s each, under the key
of their own session or challenge, and sends nothing else. -/
theorem destroy_dismisses (hs : Reachable s) (h1 : OneSession s) :
    s.destroy.result = .ok () ∧
      s.destroy.sent.Perm ((farewells s).flatMap (List.replicate 10)) :=
  destroy_perm hs.tables h1

instance (s : Server C) : Decidable (OneSession s) :=
  decidable_of_iff
    ((∀ i j, s.connected i = true → s.connected j = true →
        (s.connections i).clientAddress = (s.connections j).clientAddress → i = j) ∧
      (∀ i j, s.challenged i = true → s.challenged j = true →
        (s.challenges i).clientAddress = (s.challenges j).clientAddress → i = j) ∧
      ∀ i j, i ≠ 0 → s.connected i = true → s.challenged j = true →
        (s.connections i).clientAddress ≠ (s.challenges j).clientAddress)
    ⟨fun h => ⟨h.1, h.2.1, h.2.2⟩, fun h => ⟨h.connected, h.challenged, h.apart⟩⟩

/-- Two clients are dismissed, and a third that has asked. -/
theorem three_dismissed : ∃ s, Runs.run Server.step (Server.create sample)
      (sampleJoin (sampleAddress 1) 0 1 ++ sampleJoin (sampleAddress 2) 2 3 ++
        [sampleRequest (sampleAddress 3) 4 5]) = some s ∧
      (farewells s).map Outgoing.destination =
        [sampleAddress 1, sampleAddress 3, sampleAddress 2] ∧
      s.destroy.sent.Perm ((farewells s).flatMap (List.replicate 10)) := by
  have hrun : (Runs.run Server.step (Server.create sample)
      (sampleJoin (sampleAddress 1) 0 1 ++ sampleJoin (sampleAddress 2) 2 3 ++
        [sampleRequest (sampleAddress 3) 4 5])).map
      (fun s => decide (OneSession s ∧ (farewells s).map Outgoing.destination =
        [sampleAddress 1, sampleAddress 3, sampleAddress 2])) = some true := by decide +kernel
  obtain ⟨s, hs, hd⟩ := Option.map_eq_some_iff.mp hrun
  obtain ⟨h1, hto⟩ := of_decide_eq_true hd
  exact ⟨s, hs, hto, (destroy_dismisses ⟨_, hs⟩ h1).2⟩

end GameNetwork.Proofs
