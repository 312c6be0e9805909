import GameNetwork.Proofs.Finality
import GameNetwork.Proofs.GameData

namespace GameNetwork.Proofs

variable {C : Crypto} {c t u : Client C} {arrival : Arrival} {received now : Int}

theorem connect_ack (c : Client C) (seed : C.Seed) : (c.connect seed).self.ack = c.ack := by
  have hconnects := connect_connects c seed
  generalize (c.connect seed).self = t at hconnects ⊢
  generalize (c.connect seed).sent = sent at hconnects
  cases hconnects with
  | again | unwritten | requested => rfl

theorem sendDisconnect_ack (c : Client C) : c.sendDisconnect.self.ack = c.ack := by
  by_cases h : c.state ≠ .disconnected ∧ c.state ≠ .sendingRequest
  · rw [sendDisconnect_active h]
    rfl
  · rw [sendDisconnect_idle h]
    rfl

theorem sendGameData_ack (c : Client C) (data : GameData) (sent : Bool) :
    (c.sendGameData data sent).self.ack = c.ack := by
  unfold Client.sendGameData
  split
  · dsimp only
    split <;> rfl
  · rfl

theorem runThread_ack {o : Outcome (Client C) Unit} (h : c.runThread = some o) :
    o.self.ack = c.ack := by
  obtain ⟨n, -, rfl⟩ := runThread_some h
  rfl

theorem Ends.ack {sent : List Outgoing} (h : Ends t now u sent) : u.ack = t.ack := by
  cases h <;> rfl

/-- The number of the game data that a call brings a connected client: the datagram verifies under
its key, and the payload it claims ends inside it. -/
def offered (c : Client C) : ClientAction C → Option UInt16
  | .listen (some (_, d)) _ _ _ =>
    if d.length ≤ receiveSize ∧ c.state = .connected ∧
        hmacType C c.sharedKey d = .connectionData ∧ 11 + (gameDataSizeOf d).toNat ≤ d.length then
      some (sequenceOf d)
    else none
  | _ => none

/-- The number of game data that is newer than what was accepted last. -/
def newer (last : UInt16) (number : Option UInt16) : Option UInt16 :=
  number.filter fun n => sequenceGreaterThan n last

theorem offered_idle {action : ClientAction C} (hs : c.state ≠ .connected) :
    offered c action = none := by
  unfold offered
  split
  · exact if_neg fun h => hs h.2.1
  · rfl

theorem listen_ack (c : Client C) (arrival : Arrival) (p_size : UInt32) (received now : Int) :
    (c.listen arrival p_size received now).self.ack =
      (newer c.ack (offered c (.listen arrival p_size received now))).getD c.ack := by
  have hnone (ho : offered c (.listen arrival p_size received now) = none) {t : Client C}
      (ht : t.ack = c.ack) :
      t.ack = (newer c.ack (offered c (.listen arrival p_size received now))).getD c.ack := by
    rw [ho, ht]
    rfl
  rcases receive_cases arrival with hf | ⟨source, d, rfl, hd⟩
  · have ho : offered c (.listen arrival p_size received now) = none := by
      cases arrival with
      | none => rfl
      | some p => exact if_neg fun h => absurd h.1 (Nat.not_le_of_lt (hf p.1 p.2 rfl))
    rw [client_listen_failed hf]
    exact hnone ho (checkTimeout_ends c now).ack
  obtain ⟨b, hl, hb⟩ := client_listen_received c source p_size received now hd
  rw [hl]
  by_cases hs : c.state = .connected
  · have ht : clientType c d = .ok (hmacType C c.sharedKey d) := by
      rw [clientType, if_neg (by simp [hs])]
    rw [ht] at hb ⊢
    generalize htype : hmacType C c.sharedKey d = type at hb ⊢
    dsimp only
    split
    · rename_i hne
      rw [(concluded_ends _ now).ack]
      have hsw := dispatch_switched (touched c source received) type p_size (hb type rfl hne)
      generalize (touched c source received).dispatch type b p_size = r at hsw ⊢
      cases hsw with
      | data _ hin hg =>
        have ho : offered c (.listen (some (source, d)) p_size received now) =
            some (sequenceOf d) := if_pos ⟨hd, hs, htype, hin⟩
        have hg : sequenceGreaterThan (sequenceOf d) c.ack = true := hg
        rw [ho, newer, Option.filter_some, if_pos hg]
        rfl
      | data_old _ hin hg =>
        have ho : offered c (.listen (some (source, d)) p_size received now) =
            some (sequenceOf d) := if_pos ⟨hd, hs, htype, hin⟩
        have hg : ¬ sequenceGreaterThan (sequenceOf d) c.ack = true := hg
        rw [ho, newer, Option.filter_some, if_neg hg]
        rfl
      | data_short _ hin =>
        exact hnone (if_neg fun h => absurd h.2.2.2 (Nat.not_le_of_lt hin)) rfl
      | ignored _ _ hg =>
        exact hnone (if_neg fun h => hg ⟨htype.symm.trans h.2.2.1, hs⟩) rfl
      | challenge hreq | challenge_short hreq => exact absurd (hreq.symm.trans hs) (by simp)
      | accepted hans | accepted_short hans => exact absurd (hans.symm.trans hs) (by simp)
      | dropped _ hdrop =>
        rcases hdrop with rfl | ⟨-, hc⟩
        · exact hnone (if_neg fun h => by simp [htype] at h) rfl
        · exact absurd hs hc
    · rename_i hne
      rw [ne_eq, not_not] at hne
      exact hnone (if_neg fun h => by simp [htype, hne] at h) (checkTimeout_ends _ now).ack
  · obtain ⟨t, hn, he⟩ := client_listen_noticed c (some (source, d)) p_size received now
    rw [hl] at he
    refine hnone (offered_idle hs) (he.ack.trans ?_)
    cases hn with
    | failed => rfl
    | reacted _ h =>
      cases h with
      | data _ hc => exact absurd hc hs
      | unverified | ignored | challenge | accepted | dropped => rfl

/-- Only newer game data changes the last accepted number. Neither a new connection nor a disconnect
starts it afresh. -/
theorem step_ack {action : ClientAction C} (h : c.step action = some t) :
    t.ack = (newer c.ack (offered c action)).getD c.ack := by
  cases action with
  | connect seed => rw [Outcome.next_some h, connect_ack]; rfl
  | respondChallenge =>
    obtain ⟨o, ho, hn⟩ := Option.bind_eq_some_iff.mp h
    rw [Outcome.next_some hn, runThread_ack ho]
    rfl
  | sendDisconnect => rw [Outcome.next_some h, sendDisconnect_ack]; rfl
  | listen arrival p_size received now => rw [Outcome.next_some h, listen_ack]
  | sendGameData data sent => rw [Outcome.next_some h, sendGameData_ack]; rfl
  | setActiveTimeout p_value => cases h; rfl

/-- The first datagram a server sends in a session, delivered next, is returned to the caller. -/
def HearsFirst (c : Client C) : Prop :=
  ∀ (source : Address) (data : List UInt8) (p_size : UInt32) (received now : Int),
    43 + data.length ≤ receiveSize → data.length ≤ p_size.toNat →
    (c.listen (some (source, sealed C c.sharedKey (dataMessage 1 data))) p_size received
      now).result = .ok { ret := data.length, gameData := some data }

/-- The number 1 is ahead of 0 and of the upper half of the range. -/
def Behind (n : UInt16) : Prop := n = 0 ∨ 32769 ≤ n.toNat

instance (n : UInt16) : Decidable (Behind n) := inferInstanceAs (Decidable (_ ∨ _))

theorem first_accepted_iff (n : UInt16) : sequenceGreaterThan 1 n = true ↔ Behind n := by
  rw [Behind, sequenceGreaterThan_iff, Serial.Ahead, ← UInt16.toNat_inj]
  have := n.toNat_lt
  simp only [UInt16.reduceToNat]
  omega

theorem hearsFirst_iff (hs : c.state = .connected) : HearsFirst c ↔ Behind c.ack := by
  rw [← first_accepted_iff]
  constructor
  · intro h
    by_contra hn
    have h0 := h {} [] 0 0 0 (by simp [receiveSize]) (by simp)
    rw [listen_data hs {} 1 (by simp [receiveSize]) (by simp) 0 0, if_neg hn] at h0
    cases h0
  · intro hg source data p_size received now hfit hp
    rw [listen_data hs source 1 hfit hp received now, if_pos hg]

/-- A client and a record of its run: the numbers of the game data it has accepted, the last one
first, and whether it has handled a challenge since it was last connected. -/
structure Recorded (C : Crypto) where
  client : Client C := {}
  accepted : List UInt16 := []
  challenged : Bool := false

namespace Recorded

/-- The first game data is accepted as if after number 0. -/
def last (r : Recorded C) : UInt16 := r.accepted.headD 0

def after (r : Recorded C) (action : ClientAction C) (t : Client C) : Recorded C where
  client := t
  accepted := (newer r.last (offered r.client action)).toList ++ r.accepted
  challenged := decide (t.state ≠ .connected) &&
    (r.challenged || (handledKey r.client action).isSome)

def step (r : Recorded C) (action : ClientAction C) : Option (Recorded C) :=
  (r.client.step action).map (r.after action)

/-- The client becomes connected in a new session: it has handled a challenge since it was last
connected. A thread left over from the handshake can also make it wait for its old session again. -/
def Opens (r : Recorded C) (action : ClientAction C) (r' : Recorded C) : Prop :=
  r.step action = some r' ∧ r.client.state ≠ .connected ∧ r'.client.state = .connected ∧
    r.challenged = true

/-- In the sessions before, the client accepted no game data, or last a number from the upper half
of the range or 0. -/
def Unspent (r : Recorded C) : Prop := ∀ n ∈ r.accepted.head?, Behind n

instance (r : Recorded C) : Decidable r.Unspent :=
  inferInstanceAs (Decidable (∀ n ∈ r.accepted.head?, Behind n))

variable {r r' : Recorded C} {action : ClientAction C}

theorem unspent_iff : r.Unspent ↔ Behind r.last := by
  rw [Unspent, last]
  cases r.accepted with
  | nil => exact iff_of_true (fun _ h => by cases h) (.inl rfl)
  | cons n ns => simp

/-- The record is right about the last number. -/
theorem step_last (h : r.step action = some r') (hr : r.client.ack = r.last) :
    r'.client.ack = r'.last := by
  obtain ⟨t, ht, rfl⟩ := Option.map_eq_some_iff.mp h
  change t.ack = ((newer r.last (offered r.client action)).toList ++ r.accepted).headD 0
  rw [step_ack ht, hr]
  cases newer r.last (offered r.client action) with
  | none => rfl
  | some n => rfl

theorem Opens.hearsFirst_iff (h : r.Opens action r') (hr : r.client.ack = r.last) :
    HearsFirst r'.client ↔ r.Unspent := by
  obtain ⟨hstep, hs, hs', -⟩ := h
  have hlast := step_last hstep hr
  obtain ⟨t, ht, rfl⟩ := Option.map_eq_some_iff.mp hstep
  have hkept : (r.after action t).accepted = r.accepted := by
    rw [after, offered_idle hs]
    rfl
  rw [Proofs.hearsFirst_iff hs', hlast, unspent_iff, last, hkept, last]

end Recorded

/-- In a run of a client every new session hears the first datagram of the server exactly when the
client accepted no game data in the sessions before it, or last a number the first one is ahead
of. -/
theorem reconnect_hears_iff (actions : List (ClientAction C)) :
    Runs.Guarded Recorded.step
        (fun r action => ∀ r', r.Opens action r' → HearsFirst r'.client) {} actions ↔
      Runs.Guarded Recorded.step (fun r action => (∃ r', r.Opens action r') → r.Unspent) {}
        actions := by
  refine Runs.guarded_congr (I := fun r => r.client.ack = r.last)
    (fun _ _ _ hr hs => Recorded.step_last hs hr) (fun r action _ hr _ => ?_) rfl
  constructor
  · rintro h ⟨r', ho⟩
    exact (ho.hearsFirst_iff hr).mp (h r' ho)
  · exact fun h r' ho => (ho.hearsFirst_iff hr).mpr (h ⟨r', ho⟩)

/-- A second session does not hear the number 1 again. -/
theorem reconnected_deaf :
    ¬ ∀ (actions : List (ClientAction sample)) (r : Recorded sample) (action : ClientAction sample)
      (r' : Recorded sample), Runs.run Recorded.step {} actions = some r → r.Opens action r' →
        HearsFirst r'.client := by
  intro h
  have hrun : (Runs.run Recorded.step ({} : Recorded sample)
      (sampleAnswer (sampleAddress 9) 0 1 ++
        [sampleAccepted (sampleAddress 9) 0 1,
          .listen (some (sampleAddress 9, sealed sample (sampleSession 0 1) (dataMessage 1 [7])))
            1024 0 0,
          .sendDisconnect] ++
        sampleAnswer (sampleAddress 9) 2 3)).map
      (fun r => ((r.step (sampleAccepted (sampleAddress 9) 2 3)).map fun r' =>
        decide (r.client.state ≠ .connected ∧ r'.client.state = .connected ∧
          r.challenged = true ∧ ¬ Behind r'.client.ack))) = some (some true) := by decide +kernel
  obtain ⟨r, hr, hstep⟩ := Option.map_eq_some_iff.mp hrun
  obtain ⟨r', hr', hd⟩ := Option.map_eq_some_iff.mp hstep
  obtain ⟨hs, hs', hchallenged, hb⟩ := of_decide_eq_true hd
  exact hb ((hearsFirst_iff hs').mp (h _ r _ r' hr ⟨hr', hs, hs', hchallenged⟩))

end GameNetwork.Proofs
