import GameNetwork.Proofs.Disconnects

namespace GameNetwork.Proofs

variable {C : Crypto} {c t : Client C} {source : Address} {d : List UInt8}

/-- The state of the session is the same. -/
structure SameSession (c t : Client C) : Prop where
  state : t.state = c.state
  sharedKey : t.sharedKey = c.sharedKey
  serverAddress : t.serverAddress = c.serverAddress
  index : t.index = c.index
  ack : t.ack = c.ack
  sequence : t.sequence = c.sequence

/-- The session of a client that has a key, without the timeout. -/
def InSession (c : Client C) : Prop :=
  (c.state = .sendingChallengeResponse ∨ c.state = .connected) ∧ c.activeTimeout = false

/-- The client with another server address. -/
def aimedAt (c : Client C) (a : Address) : Client C := { c with serverAddress := a }

@[simp] theorem aimedAt_serverAddress (c : Client C) (a : Address) :
    (aimedAt c a).serverAddress = a := rfl

@[simp] theorem aimedAt_self (c : Client C) : aimedAt c c.serverAddress = c := rfl

@[simp] theorem aimedAt_aimedAt (c : Client C) (a b : Address) :
    aimedAt (aimedAt c a) b = aimedAt c b := rfl

theorem InSession.aimedAt (hc : InSession c) (a : Address) : InSession (aimedAt c a) := hc

instance : Decidable (InSession c) := inferInstanceAs (Decidable (_ ∧ _))

theorem checkTimeout_off (h : c.activeTimeout = false) (now : Int) :
    c.checkTimeout now = { self := c, result := .ok { ret := 0 } } := by
  rw [Client.checkTimeout, if_neg (by simp [h])]

/-- A rejected datagram that fits leaves its source in place of the server's address. -/
theorem rejected_listen (hc : InSession c) (p_size : UInt32) (received now : Int)
    (hd : d.length ≤ receiveSize)
    (h : verifiedType c (some (source, d)) = .ok .invalidPacket) :
    c.listen (some (source, d)) p_size received now =
      { self := aimedAt c source, result := .ok { ret := 0 } } := by
  obtain ⟨b, hl, -⟩ := client_listen_received c source p_size received now hd
  rw [verifiedType_received c source hd] at h
  rw [hl, h]
  simp only [ne_eq, not_true_eq_false, if_false]
  exact checkTimeout_off (hc.aimedAt source).2 now

theorem oversized_listen (hc : InSession c) (p_size : UInt32) (received now : Int)
    (hd : receiveSize < d.length) :
    c.listen (some (source, d)) p_size received now =
      { self := c, result := .ok { ret := 0 } } := by
  rw [client_listen_failed (receive_oversized source hd), checkTimeout_off hc.2 now]

/-- A call of `Listen` on a datagram that the client rejects. -/
def Rejected (c : Client C) : ClientAction C → Prop
  | .listen (some p) _ _ _ => verifiedType c (some p) = .ok .invalidPacket
  | _ => False

/-- The source a call of `Listen` takes over. -/
def heardFrom : ClientAction C → Option Address
  | .listen (some (source, d)) _ _ _ => if d.length ≤ receiveSize then some source else none
  | _ => none

theorem rejected_step {action : ClientAction C} (hc : InSession c) (h : Rejected c action) :
    c.step action = some (aimedAt c ((heardFrom action).getD c.serverAddress)) := by
  match action, h with
  | .listen (some (source, d)) p_size received now, h =>
    by_cases hd : d.length ≤ receiveSize
    · rw [Client.step, rejected_listen hc p_size received now hd h]
      simp [heardFrom, hd, Outcome.next]
    · rw [Client.step, oversized_listen hc p_size received now (by omega)]
      simp [heardFrom, hd, Outcome.next]

/-- Verification does not look at the server's address. -/
theorem rejected_other (a : Address) {action : ClientAction C} (h : Rejected c action) :
    Rejected (aimedAt c a) action := by
  match action, h with
  | .listen (some (source, d)) p_size received now, h => exact h

/-- A run of rejected datagrams changes the server's address only, to the last source heard. -/
theorem rejected_run (actions : List (ClientAction C)) (hc : InSession c)
    (h : ∀ action ∈ actions, Rejected c action) :
    Runs.run Client.step c actions =
      some (aimedAt c ((actions.filterMap heardFrom).getLast?.getD c.serverAddress)) := by
  induction actions generalizing c with
  | nil => rfl
  | cons action actions ih =>
    have hstep := rejected_step hc (h action (by simp))
    rw [Runs.run_cons hstep, ih (hc.aimedAt _) fun a ha => rejected_other _ (h a (by simp [ha]))]
    cases hf : heardFrom action with
    | none => simp [hf]
    | some a =>
      simp only [List.filterMap_cons, hf, Option.getD_some]
      cases hl : actions.filterMap heardFrom with
      | nil => simp
      | cons b bs => simp [List.getLast?_eq_some_getLast]

theorem sendGameData_connected (hc : c.state = .connected) (data : GameData)
    (hu : 43 + data.bytes.length < 2 ^ 31) (sent : Bool) :
    c.sendGameData data sent =
      { self := { c with sequence := c.sequence + 1 }
        sent := [⟨c.serverAddress, sealed C c.sharedKey (dataMessage (c.sequence + 1) data.bytes)⟩]
        result := .ok sent } := by
  rw [Client.sendGameData, if_pos hc]
  simp only [written_connectionData C c.sharedKey (c.sequence + 1) hu]

/-- A rejected datagram leaves the session alone exactly when it comes from the server's
address or does not fit, and after a run of them game data goes to the server exactly when
the last one that fits came from there. -/
theorem rejected_keeps_session_iff (c : Client C) (hc : InSession c) :
    (∀ (source : Address) (d : List UInt8) (p_size : UInt32) (received now : Int),
      verifiedType c (some (source, d)) = .ok .invalidPacket →
      (SameSession c (c.listen (some (source, d)) p_size received now).self ↔
        source = c.serverAddress ∨ receiveSize < d.length)) ∧
    ∀ actions : List (ClientAction C), (∀ action ∈ actions, Rejected c action) →
      ∃ t, Runs.run Client.step c actions = some t ∧
        ∀ (data : GameData) (sent : Bool), c.state = .connected →
          43 + data.bytes.length < 2 ^ 31 →
          ((t.sendGameData data sent).sent.map Outgoing.destination = [c.serverAddress] ↔
            ∀ a, (actions.filterMap heardFrom).getLast? = some a → a = c.serverAddress) := by
  constructor
  · intro source d p_size received now h
    by_cases hd : d.length ≤ receiveSize
    · rw [rejected_listen hc p_size received now hd h]
      constructor
      · exact fun hs => .inl hs.serverAddress
      · intro hs
        rcases hs with rfl | hs
        · exact ⟨rfl, rfl, rfl, rfl, rfl, rfl⟩
        · omega
    · rw [oversized_listen hc p_size received now (by omega)]
      exact ⟨fun _ => .inr (by omega), fun _ => ⟨rfl, rfl, rfl, rfl, rfl, rfl⟩⟩
  · intro actions h
    refine ⟨_, rejected_run actions hc h, ?_⟩
    intro data sent hs hu
    have hst (a : Address) : (aimedAt c a).state = .connected := hs
    rw [sendGameData_connected (hst _) data hu]
    cases (actions.filterMap heardFrom).getLast? <;> simp

def sampleConnected : Client sample :=
  { state := .connected, sharedKey := sampleShared, serverAddress := sampleAddress 9 }

theorem rejected_keeps_session_sample :
    SameSession sampleConnected
      (sampleConnected.listen (some (sampleAddress 9, [0])) 0 0 0).self :=
  ((rejected_keeps_session_iff sampleConnected (by decide)).1 (sampleAddress 9) [0] 0 0 0
    (by decide +kernel)).mpr (.inl rfl)

/-- One stray byte from another address makes that address the server's. -/
theorem rejected_moves_server :
    ¬ ∀ c : Client sample, ClientReachable c → InSession c →
      ∀ (source : Address) (d : List UInt8) (p_size : UInt32) (received now : Int),
        verifiedType c (some (source, d)) = .ok .invalidPacket →
        SameSession c (c.listen (some (source, d)) p_size received now).self := by
  intro h
  have hrun : (Runs.run Client.step ({} : Client sample)
      (sampleAnswer (sampleAddress 9) 0 1 ++ [sampleAccepted (sampleAddress 9) 0 1])).map
      (fun c => decide (InSession c ∧
        verifiedType c (some (sampleAddress 8, [0])) = .ok .invalidPacket ∧
        (c.listen (some (sampleAddress 8, [0])) 0 0 0).self.serverAddress ≠ c.serverAddress)) =
      some true := by decide +kernel
  obtain ⟨c, hc, hd⟩ := Option.map_eq_some_iff.mp hrun
  obtain ⟨hs, hv, hne⟩ := of_decide_eq_true hd
  exact hne (h c ⟨_, hc⟩ hs _ _ 0 0 0 hv).serverAddress

end GameNetwork.Proofs
