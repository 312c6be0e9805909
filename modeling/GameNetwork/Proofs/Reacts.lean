import GameNetwork.Client
import GameNetwork.Lib.Runs
import GameNetwork.Proofs.Body

namespace GameNetwork.Proofs
open Buffer

variable {C : Crypto} {c t : Client C} {source : Address} {d : List UInt8} {b : Buffer}
  {arrival : Arrival} {p_size : UInt32} {received now : Int}

/-- What the verification makes of a datagram, by its CRC or under the shared key. -/
def clientType (c : Client C) (d : List UInt8) : Except Fault PacketType :=
  if c.state = .disconnected ∨ c.state = .sendingRequest then crcType d
  else .ok (hmacType C c.sharedKey d)

/-- The same for whatever arrives. A failed receive verifies as nothing. -/
def verifiedType (c : Client C) : Arrival → Except Fault PacketType
  | some (_, d) => if d.length ≤ receiveSize then clientType c d else .ok .invalidPacket
  | none => .ok .invalidPacket

/-- The client after a datagram from the source has been verified. -/
def touched (c : Client C) (source : Address) (received : Int) : Client C :=
  { c with serverAddress := source, lastReceivedPacket := received }

/-- The client id of a `CONNECTION_ACCEPTED`. -/
def clientIdOf (d : List UInt8) : UInt32 := UInt32.ofNat (Bytes.ofBe ((d.drop 5).take 4))

/-- What follows the `switch`. -/
def concluded (now : Int) : Client C × Except Fault (Option Listened) → Outcome (Client C) Listened
  | (c, .error fault) => { self := c, result := .error fault }
  | (c, .ok (some listened)) => { self := c, result := .ok listened }
  | (c, .ok none) => c.checkTimeout now

theorem verify_received (c : Client C) (hd : d.length ≤ receiveSize) :
    ∃ b, c.verify.run (view d (List.replicate (receiveSize - d.length) 0) 0) =
        (match clientType c d with
          | .ok t => .ok t b
          | .error e => .error e b) ∧
      ∀ t, clientType c d = .ok t → t ≠ .invalidPacket → AtBody d b := by
  have hlen : d.length < 2 ^ 31 := by rw [receiveSize] at hd; omega
  have hall : (d ++ List.replicate (receiveSize - d.length) (0 : UInt8)).length ≤ receiveSize := by
    simp; omega
  unfold Client.verify clientType
  by_cases hs : c.state = .disconnected ∨ c.state = .sendingRequest
  · obtain ⟨b, hv, hb⟩ := verifyPacketCRC_view (d := d)
      (r := List.replicate (receiveSize - d.length) 0) hlen
    rw [if_pos hs, if_pos hs]
    refine ⟨b, hv, fun t ht hne => ?_⟩
    rw [hb t ht hne]
    exact atBody_patched (crcType_ne_invalid ht hne).1 hall
  · obtain ⟨i, hv, hi⟩ := verifyPacketHMAC_view (C := C) (k := c.sharedKey) (d := d)
      (r := List.replicate (receiveSize - d.length) 0) hlen
    rw [if_neg hs, if_neg hs]
    refine ⟨_, hv, fun t ht hne => ?_⟩
    cases ht
    rw [hi hne]
    exact atBody_view hall

/-- A failed receive leaves only the timeout to check. -/
theorem client_listen_failed (h : ∀ source d, arrival = some (source, d) → receiveSize < d.length) :
    c.listen arrival p_size received now = c.checkTimeout now := by
  obtain ⟨hs, hb⟩ := receiveBuffer_failed c.serverAddress h
  have hv : c.verify.run (receiveBuffer arrival c.serverAddress).2 =
      .ok .invalidPacket (receiveBuffer arrival c.serverAddress).2 := by
    unfold Client.verify
    split
    · exact verifyPacketCRC_small (by rw [hb]; simp)
    · exact verifyPacketHMAC_small (by rw [hb]; simp [hmacSize])
  unfold Client.listen
  simp only [hs]
  simp only [Client.verify] at hv ⊢
  rw [hv]
  rfl

/-- One call on a datagram that fits: the source is stored, then verification, then the
`switch`. -/
theorem client_listen_received (c : Client C) (source : Address) (p_size : UInt32)
    (received now : Int) (hd : d.length ≤ receiveSize) :
    ∃ b, c.listen (some (source, d)) p_size received now =
        (match clientType c d with
          | .error e => { self := { c with serverAddress := source }, result := .error e }
          | .ok t =>
            if t ≠ .invalidPacket then
              concluded now ((touched c source received).dispatch t b p_size)
            else ({ c with serverAddress := source } : Client C).checkTimeout now) ∧
      ∀ t, clientType c d = .ok t → t ≠ .invalidPacket → AtBody d b := by
  obtain ⟨b, hv, hb⟩ := verify_received c hd
  refine ⟨b, ?_, hb⟩
  unfold Client.listen
  rw [receiveBuffer_some hd]
  simp only [Client.verify] at hv ⊢
  rw [hv]
  cases clientType c d with
  | error e => rfl
  | ok t =>
    by_cases ht : t ≠ .invalidPacket
    · simp only [if_pos ht]
      cases hdis : (touched c source received).dispatch t b p_size with
      | mk c' r =>
        rw [touched] at hdis
        rw [hdis]
        cases r with
        | error e => rfl
        | ok v => cases v <;> rfl
    · simp only [if_neg ht]
      rw [ne_eq, not_not] at ht
      subst ht
      rfl

theorem challenge_read (hb : AtBody d b) (hk : 5 + C.roundedPublicKeySize ≤ d.length) :
    ∃ b', (ChallengePacket.read C).run b = .ok ⟨keyOf d⟩ b' := by
  obtain ⟨b', hr⟩ := readKey_atBody hb hk
  exact ⟨b', by rw [ChallengePacket.read, ok_bind hr]; rfl⟩

theorem challenge_short (hb : AtBody d b) (hk : d.length < 5 + C.roundedPublicKeySize) :
    ∃ e b', (ChallengePacket.read C).run b = .error e b' := by
  obtain ⟨e, b', hr⟩ := readKey_short hb hk
  exact ⟨e, b', by rw [ChallengePacket.read, error_bind hr]⟩

theorem accepted_read (hb : AtBody d b) (h : 9 ≤ d.length) :
    ∃ b', ConnectionAcceptedPacket.read.run b = .ok ⟨clientIdOf d⟩ b' := by
  obtain ⟨d', rest, hlen, hdrop, hall, rfl⟩ := hb
  rw [List.length_append, receiveSize] at hall
  have hr := readInteger_view (r := rest) (d := d') (i := 5) (by omega) (by omega)
  rw [hdrop] at hr
  exact ⟨_, by rw [ConnectionAcceptedPacket.read, ok_bind hr]; rfl⟩

theorem accepted_short (hb : AtBody d b) (h : d.length < 9) :
    ∃ e b', ConnectionAcceptedPacket.read.run b = .error e b' := by
  obtain ⟨d', rest, hlen, -, hall, rfl⟩ := hb
  rw [List.length_append, receiveSize] at hall
  exact ⟨_, _, by rw [ConnectionAcceptedPacket.read,
    error_bind (readInteger_view_short (by omega) (by omega))]⟩

/-- A game-data packet is read back as it was written. -/
theorem data_read {k : ShortSharedKey} {sequence : UInt16} {data : List UInt8}
    (hfit : 43 + data.length ≤ receiveSize)
    (hb : AtBody (sealed C k (dataMessage sequence data)) b) :
    ∃ b', ConnectionDataPacket.read.run b =
      .ok ⟨sequence, UInt32.ofNat data.length, data⟩ b' := by
  obtain ⟨d', rest, hlen, hdrop, -, rfl⟩ := hb
  have hl := length_sealed C k (dataMessage sequence data)
  rw [length_dataMessage] at hl
  rw [receiveSize] at hfit
  exact ⟨_, data_read_view rest (by omega) (hdrop.trans (drop_dataMessage k sequence data))⟩

/-- What the `switch` makes of a datagram of a type: the client it leaves, and what it returns or
throws. -/
inductive Switched (c : Client C) (d : List UInt8) (p_size : UInt32) :
    PacketType → Client C × Except Fault (Option Listened) → Prop
  | ignored {t : PacketType} (hc : ¬ (t = .challenge ∧ c.state = .sendingRequest))
      (ha : ¬ (t = .connectionAccepted ∧ c.state = .sendingChallengeResponse))
      (hg : ¬ (t = .connectionData ∧ c.state = .connected)) :
      Switched c d p_size t (c, .ok none)
  | challenge (hs : c.state = .sendingRequest) (hk : 5 + C.roundedPublicKeySize ≤ d.length) :
      Switched c d p_size .challenge (c.handlePacketChallenge ⟨keyOf d⟩, .ok none)
  | challenge_short {e : Fault} (hs : c.state = .sendingRequest)
      (hk : d.length < 5 + C.roundedPublicKeySize) :
      Switched c d p_size .challenge (c, .error e)
  | accepted (hs : c.state = .sendingChallengeResponse) (hl : 9 ≤ d.length) :
      Switched c d p_size .connectionAccepted
        (c.handlePacketConnectionAccepted ⟨clientIdOf d⟩, .ok none)
  | accepted_short {e : Fault} (hs : c.state = .sendingChallengeResponse) (hl : d.length < 9) :
      Switched c d p_size .connectionAccepted (c, .error e)
  | data {l : Listened} (hs : c.state = .connected)
      (hin : 11 + (gameDataSizeOf d).toNat ≤ d.length)
      (hg : sequenceGreaterThan (sequenceOf d) c.ack = true)
      (hl : ∀ g, l.gameData = some g → g = gameDataOf d) :
      Switched c d p_size .connectionData ({ c with ack := sequenceOf d }, .ok (some l))
  | data_old (hs : c.state = .connected) (hin : 11 + (gameDataSizeOf d).toNat ≤ d.length)
      (hg : ¬ sequenceGreaterThan (sequenceOf d) c.ack = true) :
      Switched c d p_size .connectionData (c, .ok (some { ret := 0 }))
  | data_short {e : Fault} (hs : c.state = .connected)
      (hin : d.length < 11 + (gameDataSizeOf d).toNat) :
      Switched c d p_size .connectionData (c, .error e)
  | dropped {t : PacketType} (hs : c.state ≠ .disconnected)
      (ht : t = .disconnect ∨ t = .connectionData ∧ c.state ≠ .connected) :
      Switched c d p_size t (c.disconnect, .ok none)

/-- The cases of `Switched` are all there are. -/
theorem dispatch_switched (c : Client C) (t : PacketType) (p_size : UInt32) (hb : AtBody d b) :
    Switched c d p_size t (c.dispatch t b p_size) := by
  cases t with
  | challenge =>
    rw [Client.dispatch]
    split
    · rename_i hs
      by_cases hk : 5 + C.roundedPublicKeySize ≤ d.length
      · obtain ⟨b', hr⟩ := challenge_read hb hk
        rw [hr]
        exact .challenge hs hk
      · obtain ⟨e, b', hr⟩ := challenge_short hb (C := C) (by omega)
        rw [hr]
        exact .challenge_short hs (by omega)
    · rename_i hs
      exact .ignored (fun h => hs h.2) (by simp) (by simp)
  | connectionAccepted =>
    rw [Client.dispatch]
    split
    · rename_i hs
      by_cases hl : 9 ≤ d.length
      · obtain ⟨b', hr⟩ := accepted_read hb hl
        rw [hr]
        exact .accepted hs hl
      · obtain ⟨e, b', hr⟩ := accepted_short hb (by omega)
        rw [hr]
        exact .accepted_short hs (by omega)
    · rename_i hs
      exact .ignored (by simp) (fun h => hs h.2) (by simp)
  | connectionData =>
    rw [Client.dispatch]
    split
    · rename_i hs
      by_cases hin : 11 + (gameDataSizeOf d).toNat ≤ d.length
      · obtain ⟨b', hr⟩ := data_read_inside hb hin
        rw [hr]
        dsimp only
        split
        · rename_i hg
          split
          · exact .data hs hin hg fun g h => (Option.some.inj h).symm
          · exact .data hs hin hg fun g h => by cases h
        · rename_i hg
          exact .data_old hs hin hg
      · obtain ⟨e, b', hr⟩ := data_read_past hb (by omega)
        rw [hr]
        exact .data_short hs (by omega)
    · rename_i hs
      split
      · rename_i hd
        exact .dropped hd (.inr ⟨rfl, hs⟩)
      · exact .ignored (by simp) (by simp) (fun h => hs h.2)
  | disconnect =>
    rw [Client.dispatch]
    split
    · rename_i hd
      exact .dropped hd (.inl rfl)
    · exact .ignored (by simp) (by simp) (by simp)
  | invalidPacket | connectionRequest | challengeResponse | other =>
    exact .ignored (by simp) (by simp) (by simp)

/-- Everything a datagram that fits can do to the client before the timeout is checked. -/
inductive Reacts (c : Client C) (source : Address) (d : List UInt8) (received : Int) :
    Client C → Prop
  | unverified (h : ∀ t, clientType c d = .ok t → t = .invalidPacket) :
      Reacts c source d received { c with serverAddress := source }
  | ignored {t : PacketType} (h : clientType c d = .ok t) (ht : t ≠ .invalidPacket) :
      Reacts c source d received (touched c source received)
  | challenge (h : clientType c d = .ok .challenge) (hs : c.state = .sendingRequest)
      (hk : 5 + C.roundedPublicKeySize ≤ d.length) :
      Reacts c source d received ((touched c source received).handlePacketChallenge ⟨keyOf d⟩)
  | accepted (h : clientType c d = .ok .connectionAccepted)
      (hs : c.state = .sendingChallengeResponse) (hl : 9 ≤ d.length) :
      Reacts c source d received
        ((touched c source received).handlePacketConnectionAccepted ⟨clientIdOf d⟩)
  | data (h : clientType c d = .ok .connectionData) (hs : c.state = .connected)
      (hg : sequenceGreaterThan (sequenceOf d) c.ack = true) :
      Reacts c source d received { touched c source received with ack := sequenceOf d }
  | dropped (h : clientType c d = .ok .disconnect ∧ c.state ≠ .disconnected ∨
        clientType c d = .ok .connectionData ∧ c.state ≠ .disconnected ∧ c.state ≠ .connected) :
      Reacts c source d received (touched c source received).disconnect

/-- The end of a call: the client as it is, or timed out with its ten `DISCONNECT`s. -/
inductive Ends (c : Client C) (now : Int) : Client C → List Outgoing → Prop
  | stays : Ends c now c []
  | times_out (ha : c.activeTimeout = true) (hs : c.state = .connected)
      (hn : now - c.lastReceivedPacket > timeoutTime) :
      Ends c now c.disconnect (List.replicate 10
        ⟨c.serverAddress, sealed C c.sharedKey (header .disconnect)⟩)

theorem sendDisconnect_idle (h : ¬ (c.state ≠ .disconnected ∧ c.state ≠ .sendingRequest)) :
    c.sendDisconnect = { self := c.disconnect, result := .ok () } := by
  rw [Client.sendDisconnect, if_neg h]
  rfl

theorem sendDisconnect_active (h : c.state ≠ .disconnected ∧ c.state ≠ .sendingRequest) :
    c.sendDisconnect =
      { self := c.disconnect
        sent := List.replicate 10 ⟨c.serverAddress, sealed C c.sharedKey (header .disconnect)⟩
        result := .ok () } := by
  rw [Client.sendDisconnect, if_pos h, written_disconnect]
  rfl

theorem respondChallenge_eq (c : Client C) :
    c.respondChallenge =
      { self := { c with state := .sendingChallengeResponse }
        sent := [⟨c.serverAddress, sealed C c.sharedKey (header .challengeResponse)⟩]
        result := .ok () } := by
  rw [Client.respondChallenge, written_challengeResponse]
  rfl

/-- A thread that runs answers under the key and to the address the client has then. -/
theorem runThread_some {o : Outcome (Client C) Unit} (h : c.runThread = some o) :
    ∃ n, c.respondThreads = n + 1 ∧ o =
      { self := { c with respondThreads := n, state := .sendingChallengeResponse }
        sent := [⟨c.serverAddress, sealed C c.sharedKey (header .challengeResponse)⟩]
        result := .ok () } := by
  unfold Client.runThread at h
  split at h
  · cases h
  · rename_i n hn
    obtain rfl := Option.some.inj h
    exact ⟨n, hn, respondChallenge_eq _⟩

/-- A client that is not connected cannot time out. -/
theorem checkTimeout_idle (h : c.state ≠ .connected) :
    c.checkTimeout now = { self := c, result := .ok { ret := 0 } } := by
  rw [Client.checkTimeout, if_neg (by simp [h])]

/-- The end of a call returns 0, also when it gives the server up. -/
theorem checkTimeout_result (c : Client C) (now : Int) :
    (c.checkTimeout now).result = .ok { ret := 0 } := by
  unfold Client.checkTimeout
  split
  · rename_i h
    rw [sendDisconnect_active (by simp [h.2.1])]
    rfl
  · rfl

theorem checkTimeout_ends (c : Client C) (now : Int) :
    Ends c now (c.checkTimeout now).self (c.checkTimeout now).sent := by
  unfold Client.checkTimeout
  split
  · rename_i h
    rw [sendDisconnect_active (by simp [h.2.1])]
    exact .times_out h.1 h.2.1 h.2.2
  · exact .stays

theorem concluded_ends (r : Client C × Except Fault (Option Listened)) (now : Int) :
    Ends r.1 now (concluded now r).self (concluded now r).sent := by
  obtain ⟨c, v⟩ := r
  cases v with
  | error e => exact .stays
  | ok v =>
    cases v with
    | none => exact checkTimeout_ends c now
    | some l => exact .stays

/-- What the `switch` does to the client. -/
theorem dispatch_reacts {t : PacketType} (source : Address) (received : Int) (p_size : UInt32)
    (ht : clientType c d = .ok t) (hne : t ≠ .invalidPacket) (hb : AtBody d b) :
    Reacts c source d received ((touched c source received).dispatch t b p_size).1 := by
  have hsw := dispatch_switched (touched c source received) t p_size hb
  generalize (touched c source received).dispatch t b p_size = r at hsw ⊢
  cases hsw with
  | ignored => exact .ignored ht hne
  | challenge hs hk => exact .challenge ht hs hk
  | accepted hs hl => exact .accepted ht hs hl
  | data hs hin hg => exact .data ht hs hg
  | challenge_short | accepted_short | data_old | data_short => exact .ignored ht hne
  | dropped hs htype =>
    rcases htype with rfl | ⟨rfl, hc⟩
    · exact .dropped (.inl ⟨ht, hs⟩)
    · exact .dropped (.inr ⟨ht, hs, hc⟩)

/-- What a call has done to the client before it checks the timeout. -/
inductive Noticed (c : Client C) (received : Int) : Arrival → Client C → Prop
  | failed {arrival : Arrival}
      (h : ∀ source d, arrival = some (source, d) → receiveSize < d.length) :
      Noticed c received arrival c
  | reacted {source : Address} {d : List UInt8} {t : Client C} (hd : d.length ≤ receiveSize)
      (h : Reacts c source d received t) : Noticed c received (some (source, d)) t

/-- The cases of `Noticed` and `Ends` are all there are. -/
theorem client_listen_noticed (c : Client C) (arrival : Arrival) (p_size : UInt32)
    (received now : Int) :
    ∃ t, Noticed c received arrival t ∧
      Ends t now (c.listen arrival p_size received now).self
        (c.listen arrival p_size received now).sent := by
  rcases receive_cases arrival with hf | ⟨source, d, rfl, hd⟩
  · rw [client_listen_failed hf]
    exact ⟨c, .failed hf, checkTimeout_ends c now⟩
  obtain ⟨b, hl, hb⟩ := client_listen_received c source p_size received now hd
  rw [hl]
  cases ht : clientType c d with
  | error e => exact ⟨_, .reacted hd (.unverified fun t h => by rw [ht] at h; cases h), .stays⟩
  | ok t =>
    by_cases hne : t = .invalidPacket
    · refine ⟨{ c with serverAddress := source }, .reacted hd (.unverified fun u h => ?_), ?_⟩
      · rw [ht] at h
        cases h
        exact hne
      · simp only [hne, ne_eq, not_true_eq_false, if_false]
        exact checkTimeout_ends _ now
    · refine ⟨_, .reacted hd (dispatch_reacts source received p_size ht hne (hb t ht hne)), ?_⟩
      simp only [ne_eq, hne, not_false_eq_true, if_true]
      exact concluded_ends _ now

/-- A client some run of calls leads to. -/
def ClientReachable (c : Client C) : Prop :=
  ∃ actions, Runs.run Client.step ({} : Client C) actions = some c

end GameNetwork.Proofs
