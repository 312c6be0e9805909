import GameNetwork.Proofs.Ideal
import GameNetwork.Proofs.Reacts

namespace GameNetwork.Proofs

variable {C : Crypto} {c t : Client C} {source : Address} {d : List UInt8} {arrival : Arrival}
  {received now : Int}

/-- When the client last heard something that verifies, this call included. -/
def lastSeen (c : Client C) (arrival : Arrival) (received : Int) : Int :=
  match verifiedType c arrival with
  | .ok .invalidPacket => c.lastReceivedPacket
  | .ok _ => received
  | .error _ => c.lastReceivedPacket

/-- The timeout is set, and the client is connected, perhaps by this very packet, and has
heard nothing for too long. -/
def TimedOut (c : Client C) (arrival : Arrival) (received now : Int) : Prop :=
  c.activeTimeout = true ∧
    (c.state = .connected ∨ c.state = .sendingChallengeResponse ∧
      verifiedType c arrival = .ok .connectionAccepted) ∧
    now - lastSeen c arrival received > timeoutTime

/-- A call disconnects the client for a `DISCONNECT` or a timeout only, and game data that
comes before the accept leaves the handshake as it is. -/
def OnlyDisconnects (c : Client C) (arrival : Arrival) (p_size : UInt32) (received now : Int) :
    Prop :=
  (c.state ≠ .disconnected →
    (c.listen arrival p_size received now).self.state = .disconnected →
    (c.listen arrival p_size received now).self.sharedKey = 0 ∧
      (c.listen arrival p_size received now).self.serverAddress = {} ∧
      (verifiedType c arrival = .ok .disconnect ∨ TimedOut c arrival received now)) ∧
  (c.state = .sendingChallengeResponse → verifiedType c arrival = .ok .connectionData →
    (c.listen arrival p_size received now).self.state = .sendingChallengeResponse ∧
      (c.listen arrival p_size received now).self.sharedKey = c.sharedKey)

/-- Game data that verifies while the handshake is under way. -/
def EarlyData (c : Client C) (arrival : Arrival) : Prop :=
  verifiedType c arrival = .ok .connectionData ∧
    (c.state = .sendingRequest ∨ c.state = .sendingChallengeResponse)

theorem verifiedType_received (c : Client C) (source : Address) (hd : d.length ≤ receiveSize) :
    verifiedType c (some (source, d)) = clientType c d := by
  simp only [verifiedType, if_pos hd]

theorem verifiedType_failed (h : ∀ source d, arrival = some (source, d) → receiveSize < d.length) :
    verifiedType c arrival = .ok .invalidPacket := by
  cases arrival with
  | none => rfl
  | some p =>
    have hp : ¬ p.2.length ≤ receiveSize := by have := h p.1 p.2 rfl; omega
    simp only [verifiedType, if_neg hp]

instance : Decidable (EarlyData c arrival) := inferInstanceAs (Decidable (_ ∧ _))

/-- Early game data runs on into the `DISCONNECT` case. -/
theorem early_data_disconnects (p_size : UInt32) (received now : Int)
    (h : EarlyData c arrival) :
    (c.listen arrival p_size received now).self.state = .disconnected := by
  obtain ⟨ht, hs⟩ := h
  rcases receive_cases arrival with hf | ⟨source, d, rfl, hd⟩
  · rw [verifiedType_failed hf] at ht
    cases ht
  rw [verifiedType_received c source hd] at ht
  obtain ⟨b, hl, -⟩ := client_listen_received c source p_size received now hd
  have hst : (touched c source received).state = c.state := rfl
  have hc : c.state ≠ .connected := by rcases hs with hs | hs <;> simp [hs]
  have hn : c.state ≠ .disconnected := by rcases hs with hs | hs <;> simp [hs]
  rw [hl, ht]
  simp only [ne_eq, reduceCtorEq, not_false_eq_true, if_true, Client.dispatch, hst, if_neg hc, hn,
    concluded]
  rw [checkTimeout_idle (by simp [Client.disconnect])]
  rfl

/-- What an end of the client by the timeout says about the call. -/
theorem Reacts.timed_out (h : Reacts c source d received t) (hd : d.length ≤ receiveSize)
    (ha : t.activeTimeout = true) (hs : t.state = .connected)
    (hn : now - t.lastReceivedPacket > timeoutTime) :
    TimedOut c (some (source, d)) received now := by
  have hv : verifiedType c (some (source, d)) = clientType c d := verifiedType_received c source hd
  cases h with
  | unverified h =>
    refine ⟨ha, .inl hs, ?_⟩
    rw [lastSeen, hv]
    cases ht : clientType c d with
    | error e => exact hn
    | ok t => rw [h t ht]; exact hn
  | @ignored t h hne =>
    refine ⟨ha, .inl hs, ?_⟩
    rw [lastSeen, hv, h]
    cases t <;> first | exact hn | exact absurd rfl hne
  | challenge _ hr => rw [show c.state = .connected from hs] at hr; cases hr
  | accepted h hr =>
    refine ⟨ha, .inr ⟨hr, by rw [hv, h]⟩, ?_⟩
    rw [lastSeen, hv, h]
    exact hn
  | data h hr =>
    refine ⟨ha, .inl hr, ?_⟩
    rw [lastSeen, hv, h]
    exact hn
  | dropped => cases hs

/-- A client that ends disconnected was dropped or timed out. -/
theorem Noticed.disconnected {sent : List Outgoing} {u : Client C}
    (h : Noticed c received arrival t) (he : Ends t now u sent) (hc : c.state ≠ .disconnected)
    (hu : u.state = .disconnected) :
    u.sharedKey = 0 ∧ u.serverAddress = {} ∧
      (verifiedType c arrival = .ok .disconnect ∨ EarlyData c arrival ∨
        TimedOut c arrival received now) := by
  cases he with
  | times_out ha hs hn =>
    refine ⟨rfl, rfl, .inr (.inr ?_)⟩
    cases h with
    | failed hf => exact ⟨ha, .inl hs, by rw [lastSeen, verifiedType_failed hf]; exact hn⟩
    | reacted hd h => exact h.timed_out hd ha hs hn
  | stays =>
    cases h with
    | failed => exact absurd hu hc
    | @reacted source d _ hd h =>
      have hv := verifiedType_received c source hd
      cases h with
      | unverified => exact absurd hu hc
      | ignored => exact absurd hu hc
      | challenge => exact absurd hu hc
      | accepted => cases hu
      | data => exact absurd hu hc
      | dropped h =>
        refine ⟨rfl, rfl, ?_⟩
        rcases h with ⟨h, -⟩ | ⟨h, hd', hn⟩
        · exact .inl (by rw [hv, h])
        · refine .inr (.inl ⟨by rw [hv, h], ?_⟩)
          cases hs : c.state <;> simp_all

/-- A call disconnects for a `DISCONNECT` or a timeout only, unless it hears game data before
the handshake is over. -/
theorem only_disconnects_iff (c : Client C) (arrival : Arrival) (p_size : UInt32)
    (received now : Int) :
    OnlyDisconnects c arrival p_size received now ↔ ¬ EarlyData c arrival := by
  constructor
  · intro h hearly
    have hdis := early_data_disconnects p_size received now hearly
    obtain ⟨ht, hs⟩ := hearly
    have hc : c.state ≠ .disconnected := by rcases hs with hs | hs <;> simp [hs]
    rcases (h.1 hc hdis).2.2 with hv | ⟨-, hconn | ⟨-, hv⟩, -⟩
    · rw [ht] at hv; cases hv
    · rcases hs with hs | hs <;> rw [hs] at hconn <;> cases hconn
    · rw [ht] at hv; cases hv
  · intro h
    constructor
    · intro hc hu
      obtain ⟨t, hn, he⟩ := client_listen_noticed c arrival p_size received now
      obtain ⟨hk, ha, hcause⟩ := hn.disconnected he hc hu
      refine ⟨hk, ha, ?_⟩
      rcases hcause with hv | hv | hv
      · exact .inl hv
      · exact absurd hv h
      · exact .inr hv
    · intro hs ht
      exact absurd ⟨ht, .inr hs⟩ h

/-- A client that has answered its challenge hears game data before the accept. -/
theorem early_data_disconnected :
    ¬ ∀ c : Client sample, ClientReachable c → ∀ (arrival : Arrival) (p_size : UInt32)
      (received now : Int), OnlyDisconnects c arrival p_size received now := by
  intro h
  have hrun : (Runs.run Client.step ({} : Client sample)
      (sampleAnswer (sampleAddress 9) 0 1)).map (fun c => decide (EarlyData c
        (some (sampleAddress 9, sealed sample (sampleSession 0 1) (dataMessage 1 [7]))) ∧
        c.state = .sendingChallengeResponse)) = some true := by decide +kernel
  obtain ⟨c, hc, hd⟩ := Option.map_eq_some_iff.mp hrun
  obtain ⟨hearly, hs⟩ := of_decide_eq_true hd
  have hdis := early_data_disconnects 1024 0 0 hearly
  rw [((h c ⟨_, hc⟩ _ 1024 0 0).2 hs hearly.1).1] at hdis
  cases hdis

end GameNetwork.Proofs
