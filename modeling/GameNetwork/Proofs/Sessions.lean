import GameNetwork.Proofs.Ideal
import GameNetwork.Proofs.Steps

namespace GameNetwork.Proofs

variable {C : Crypto} {s t : Server C} {sender : Address} {d : List UInt8}

/-- A sender found past slot 0 is connected there. -/
theorem connection_found (h : s.findExistingConnectionIndex sender > 0) :
    ∃ i : Slot, s.findExistingConnectionIndex sender = i.val ∧ i ≠ 0 ∧ s.connected i = true ∧
      (s.connections i).clientAddress = sender := by
  rcases FirstIndex.cases_on
      (fun i => s.connected i && decide ((s.connections i).clientAddress = sender)) with
    ⟨i, he, hi, -⟩ | ⟨he, -⟩
  · simp only [Bool.and_eq_true, decide_eq_true_eq] at hi
    refine ⟨i, he, ?_, hi⟩
    rintro rfl
    rw [Server.findExistingConnectionIndex, he] at h
    exact absurd h (by decide)
  · rw [Server.findExistingConnectionIndex, he] at h
    exact absurd h (by decide)

/-- The server's own address is found in slot 0. -/
theorem Tables.own_index (hT : Tables s) : s.findExistingConnectionIndex ownAddress = 0 := by
  refine FirstIndex.eq_iff (i := (0 : Slot)) |>.mpr ⟨?_, fun j hj => absurd hj (by simp)⟩
  simp [hT.own_connected, hT.own_address]

theorem Tables.challenge_slot (hT : Tables s) (h : s.findExistingChallengeIndex sender ≥ 0) :
    s.findExistingChallengeIndex sender = 1 := hT.challenge_one (by omega)

/-- A challenge that is found is pending. -/
theorem Tables.challenged_at (hT : Tables s) (h : s.findExistingChallengeIndex sender = 1) :
    s.challenged 1 = true ∧ (s.challenges 1).clientAddress = sender := by
  rcases hT.challenge_cases sender with ⟨-, h1⟩ | ⟨hlt, -⟩
  · exact h1
  · omega

theorem free_slot (h : s.findFreeConnectionIndex ≥ 0) :
    ∃ j : Slot, s.findFreeConnectionIndex = j.val ∧ s.connected j = false := by
  rcases FirstIndex.cases_on (fun i => !s.connected i) with ⟨j, he, hj, -⟩ | ⟨he, -⟩
  · exact ⟨j, he, by simpa using hj⟩
  · rw [Server.findFreeConnectionIndex, he] at h
    exact absurd h (by decide)

/-- No address has two slots of one table, or a slot past 0 of each. -/
structure OneSession (s : Server C) : Prop where
  connected : ∀ i j, s.connected i = true → s.connected j = true →
    (s.connections i).clientAddress = (s.connections j).clientAddress → i = j
  challenged : ∀ i j, s.challenged i = true → s.challenged j = true →
    (s.challenges i).clientAddress = (s.challenges j).clientAddress → i = j
  apart : ∀ i j, i ≠ 0 → s.connected i = true → s.challenged j = true →
    (s.connections i).clientAddress ≠ (s.challenges j).clientAddress

theorem OneSession.create (C : Crypto) : OneSession (Server.create C) := by
  constructor
  · intro i j hi hj _
    have hz (k : Slot) (hk : (Server.create C).connected k = true) : k = 0 := by
      by_contra h
      simp [Server.create, h] at hk
    rw [hz i hi, hz j hj]
  · intro i _ hi
    simp [Server.create] at hi
  · intro i j _ _ hj
    simp [Server.create] at hj

/-- Fewer entries with the same addresses keep the property. -/
theorem OneSession.mono (h : OneSession s)
    (hc : ∀ i, t.connected i = true → s.connected i = true ∧
      (t.connections i).clientAddress = (s.connections i).clientAddress)
    (hch : ∀ i, t.challenged i = true → s.challenged i = true ∧
      (t.challenges i).clientAddress = (s.challenges i).clientAddress) : OneSession t where
  connected i j hi hj he := by
    obtain ⟨hi, ai⟩ := hc i hi
    obtain ⟨hj, aj⟩ := hc j hj
    exact h.connected i j hi hj (by rw [← ai, ← aj, he])
  challenged i j hi hj he := by
    obtain ⟨hi, ai⟩ := hch i hi
    obtain ⟨hj, aj⟩ := hch j hj
    exact h.challenged i j hi hj (by rw [← ai, ← aj, he])
  apart i j hz hi hj he := by
    obtain ⟨hi, ai⟩ := hc i hi
    obtain ⟨hj, aj⟩ := hch j hj
    exact h.apart i j hz hi hj (by rw [← ai, ← aj, he])

/-- A connected sender's lookup ends at its slot. -/
theorem OneSession.index_pos (h : OneSession s) {i : Slot} (hi : i ≠ 0)
    (hc : s.connected i = true) (ha : (s.connections i).clientAddress = sender) :
    s.findExistingConnectionIndex sender > 0 := by
  have he : s.findExistingConnectionIndex sender = i.val := by
    apply FirstIndex.eq_of_unique (by simp [hc, ha])
    intro j hj
    simp only [Bool.and_eq_true, decide_eq_true_eq] at hj
    exact h.connected j i hj.1 hc (by rw [hj.2, ha])
  have : i.val ≠ 0 := fun hz => hi (Fin.ext hz)
  omega

/-- A connected client asks for a challenge in a request sealed with its own key. -/
def RequestsAgain (s : Server C) (sender : Address) (d : List UInt8) : Prop :=
  d.length ≤ receiveSize ∧ s.state = .lobby ∧ s.findExistingConnectionIndex sender > 0 ∧
    hmacType C (s.connections (slot (s.findExistingConnectionIndex sender))).sharedKey d =
      .connectionRequest ∧
    5 + C.roundedPublicKeySize ≤ d.length

/-- A sender at the server's own address answers its challenge while a slot is free. -/
def OwnAnswers (s : Server C) (sender : Address) (d : List UInt8) : Prop :=
  d.length ≤ receiveSize ∧ s.state = .lobby ∧ sender = ownAddress ∧
    s.findExistingChallengeIndex sender ≥ 0 ∧
    hmacType C (s.challenges (slot (s.findExistingChallengeIndex sender))).resolved.sharedKey d =
      .challengeResponse ∧
    s.findFreeConnectionIndex ≥ 0

def Doubles (s : Server C) : ServerAction C → Prop
  | .listen (some (sender, d)) _ _ => RequestsAgain s sender d ∨ OwnAnswers s sender d
  | _ => False

instance (s : Server C) (sender : Address) (d : List UInt8) :
    Decidable (RequestsAgain s sender d) := inferInstanceAs (Decidable (_ ∧ _))

instance (s : Server C) (sender : Address) (d : List UInt8) :
    Decidable (OwnAnswers s sender d) := inferInstanceAs (Decidable (_ ∧ _))

instance (s : Server C) : (action : ServerAction C) → Decidable (Doubles s action)
  | .listen (some (sender, d)) _ _ =>
    inferInstanceAs (Decidable (RequestsAgain s sender d ∨ OwnAnswers s sender d))
  | .listen none _ _ | .propagateGameData _ | .switchToLobby | .switchToGame => .isFalse id

theorem classify_connected (hc : s.findExistingConnectionIndex sender > 0) :
    classify s sender d = .ok (some (hmacType C
      (s.connections (slot (s.findExistingConnectionIndex sender))).sharedKey d)) := by
  rw [classify, if_pos hc]

theorem classify_challenged (hn : ¬ s.findExistingConnectionIndex sender > 0)
    (hc : s.findExistingChallengeIndex sender = 1) :
    classify s sender d = .ok (some (hmacType C (s.challenges 1).resolved.sharedKey d)) := by
  rw [classify, if_neg hn, if_neg (by omega), hc, slot_one]

section
variable {seed : C.Seed} {p_size : UInt32} (hT : Tables s) (hP : OneSession s)
include hT hP

theorem RequestsAgain.breaks (h : RequestsAgain s sender d) :
    ¬ OneSession (s.listen (some (sender, d)) seed p_size).self := by
  obtain ⟨hd, hs, hc, ht, hk⟩ := h
  obtain ⟨i, -, hi, hci, ha⟩ := connection_found hc
  have hnew : s.findExistingChallengeIndex sender < 0 := by
    rcases hT.challenge_cases sender with ⟨-, h1, h2⟩ | ⟨h1, -⟩
    · exact absurd (ha.trans h2.symm) (hP.apart i 1 hi hci h1)
    · exact h1
  rw [listen_challenge hT hd (by rw [classify_connected hc, ht]) hs hk hnew]
  intro h
  exact h.apart i 1 hi hci (by simp [withChallenge])
    (by simpa [withChallenge, newChallenge] using ha)

omit hP in
theorem OwnAnswers.breaks (h : OwnAnswers s sender d) :
    ¬ OneSession (s.listen (some (sender, d)) seed p_size).self := by
  obtain ⟨hd, hs, rfl, hc, ht, hf⟩ := h
  have h1 := hT.challenge_slot hc
  obtain ⟨j, hj, -⟩ := free_slot hf
  have hj0 := hT.free_ne_zero hj
  have hn : ¬ s.findExistingConnectionIndex ownAddress > 0 := by rw [hT.own_index]; decide
  rw [h1, slot_one] at ht
  rw [listen_accept hT hd (by rw [classify_challenged hn h1, ht]) hs h1 hj]
  intro h
  have ha := (hT.challenged_at h1).2
  have := h.connected 0 j (by simpa [accepted, Ne.symm hj0] using hT.own_connected)
    (by simp [accepted]) (by simpa [accepted, Ne.symm hj0, ha] using hT.own_address)
  exact hj0 this.symm

/-- A challenge for an address that is not connected. -/
theorem withChallenge_one_session {challenge : ChallengeInfo C}
    (hno : ∀ i, i ≠ 0 → s.connected i = true →
      (s.connections i).clientAddress ≠ challenge.clientAddress) :
    OneSession (withChallenge s challenge) := by
  have hone (i : Slot) (hi : (withChallenge s challenge).challenged i = true) : i = 1 :=
    (withChallenge_tables hT _).challenged_one i hi
  constructor
  · exact hP.connected
  · intro i j hi hj _
    rw [hone i hi, hone j hj]
  · intro i j hz hi hj
    rw [hone j hj]
    simpa [withChallenge] using hno i hz hi

/-- A connection for an address that has none. -/
theorem accepted_one_session {j : Slot} (hj : s.findFreeConnectionIndex = j.val)
    (hno : ∀ i, s.connected i = true →
      (s.connections i).clientAddress ≠ (s.challenges 1).clientAddress) :
    OneSession (accepted s j) := by
  have hnone (i : Slot) : (accepted s j).challenged i = false := by
    by_cases hi : i = 1
    · simp [accepted, dropChallenge, hi]
    · by_contra h
      simp only [Bool.not_eq_false] at h
      exact hi ((accepted_tables hT hj).challenged_one i h)
  constructor
  · intro i k hi hk he
    by_cases hij : i = j <;> by_cases hkj : k = j
    · rw [hij, hkj]
    · simp only [accepted, hij, Function.update_self, Function.update_of_ne hkj] at he hk
      exact absurd he.symm (hno k hk)
    · simp only [accepted, hkj, Function.update_self, Function.update_of_ne hij] at he hi
      exact absurd he (hno i hi)
    · simp only [accepted, Function.update_of_ne hij, Function.update_of_ne hkj] at he hi hk
      exact hP.connected i k hi hk he
  · intro i _ hi
    rw [hnone i] at hi
    cases hi
  · intro i k _ _ hk
    rw [hnone k] at hk
    cases hk

theorem Heard.one_session {arrival : Arrival} {sent : List Outgoing}
    (h : Heard s seed arrival t sent) (hgood : ¬ Doubles s (.listen arrival seed p_size)) :
    OneSession t := by
  cases h with
  | quiet ht =>
    have ha := ht.alike
    exact hP.mono (fun i hi => by rw [ha.connections]; exact ⟨ha.connected ▸ hi, rfl⟩)
      (fun i hi => ⟨ha.challenged ▸ hi, ha.address i⟩)
  | @challenge sender d hd ht hs hk hc =>
    apply withChallenge_one_session hT hP
    intro i hi hci ha
    have hpos : s.findExistingConnectionIndex sender > 0 := hP.index_pos hi hci ha
    rw [classify_connected hpos] at ht
    exact hgood (.inl ⟨hd, hs, hpos, by simpa using ht, hk⟩)
  | @rechallenge sender d u hd ht hs hk hc hf =>
    apply hP.mono
    · intro i hi
      exact ⟨hi, rfl⟩
    · intro i hi
      obtain rfl := (withChallenge_tables hT _).challenged_one i hi
      exact ⟨(hT.challenged_at hc).1, by simpa [withChallenge, restarted] using hf.alike.address 1⟩
  | @accept sender d j hd ht hs hc hj =>
    obtain ⟨h1, ha⟩ := hT.challenged_at hc
    apply accepted_one_session hT hP hj
    intro i hi he
    rw [ha] at he
    by_cases hz : i = 0
    · -- slot 0 has the server's own address, so this is its answer
      subst hz
      rw [hT.own_address] at he
      subst he
      rw [classify_challenged (by rw [hT.own_index]; decide) hc] at ht
      refine hgood (.inr ⟨hd, hs, rfl, by omega, ?_, by omega⟩)
      rw [hc, slot_one]
      simpa using ht
    · exact hP.apart i 1 hz hi h1 (he.trans ha.symm)
  | disconnect =>
    apply hP.mono
    · intro i hi
      by_cases h1 : i = 1
      · simp [dropConnection, h1] at hi
      · simpa [dropConnection, h1] using hi
    · intro i hi
      exact ⟨hi, rfl⟩
  | withdraw =>
    apply hP.mono
    · intro i hi
      exact ⟨hi, rfl⟩
    · intro i hi
      by_cases h1 : i = 1
      · simp [dropChallenge, h1] at hi
      · simpa [dropChallenge, h1] using hi

/-- One call keeps addresses single unless a connected client requests again or the server's
own address is answered. -/
theorem step_one_session {action : ServerAction C} (hs : s.step action = some t) :
    OneSession t ↔ ¬ Doubles s action := by
  constructor
  · intro ht hbad
    cases action with
    | listen arrival seed p_size =>
      cases arrival with
      | none => exact hbad
      | some p =>
        obtain rfl := Outcome.next_some hs
        rcases hbad with hbad | hbad
        · exact hbad.breaks hT hP ht
        · exact hbad.breaks hT ht
    | propagateGameData => exact hbad
    | switchToLobby => exact hbad
    | switchToGame => exact hbad
  · intro hgood
    cases step_stepped hT hs with
    | propagate h =>
      exact hP.mono (fun i hi => ⟨h.connected ▸ hi, h.address i⟩)
        (fun i hi => ⟨h.challenged ▸ hi, by rw [h.challenges]⟩)
    | lobby => exact ⟨hP.connected, hP.challenged, hP.apart⟩
    | game => exact ⟨hP.connected, hP.challenged, hP.apart⟩
    | listen h => exact h.one_session hT hP hgood

end

/-- Addresses stay single through a run exactly when none of its calls doubles one. -/
theorem one_session_iff (actions : List (ServerAction C)) :
    Runs.Throughout Server.step OneSession (Server.create C) actions ↔
      Runs.Guarded Server.step (fun s action => ¬ Doubles s action) (Server.create C) actions :=
  Runs.throughout_iff_guarded (fun _ _ _ hT hs => step_tables hT hs)
    (fun _ _ _ hT hP hs => step_one_session hT hP hs) (Tables.create C) (OneSession.create C)

/-- A connected client asks again under its own key, and is challenged. -/
theorem sessions_not_single : ¬ ∀ s : Server sample, Reachable s → OneSession s := by
  intro h
  have hrun : (Runs.run Server.step (Server.create sample)
      (sampleJoin (sampleAddress 1) 0 1 ++ [sampleHears (sampleAddress 1)
        (sealed sample (sampleSession 0 1)
          (header .connectionRequest ++ (sampleKey 2).bytes)) 3])).map
      (fun s => decide (s.connected 1 = true ∧ s.challenged 1 = true ∧
        (s.connections 1).clientAddress = (s.challenges 1).clientAddress)) = some true := by
    decide +kernel
  obtain ⟨s, hs, hc⟩ := Option.map_eq_some_iff.mp hrun
  obtain ⟨hconn, hchall, ha⟩ := of_decide_eq_true hc
  exact (h s ⟨_, hs⟩).apart 1 1 (by decide) hconn hchall ha

end GameNetwork.Proofs
