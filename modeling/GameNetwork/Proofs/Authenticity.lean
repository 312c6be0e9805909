import GameNetwork.Proofs.ConsistentClient
import GameNetwork.Proofs.Parties
import GameNetwork.Proofs.Propagate
import GameNetwork.Proofs.Reported

namespace GameNetwork.Proofs

variable {C : Crypto} {k : ShortSharedKey} {s t : Server C} {c c' : Client C} {d : List UInt8}
  {sent : List Outgoing} {out : Outgoing} {arrival : Arrival} {seed : C.Seed}

/-- The server, one client and an attacker between them. `network` has every datagram the two
sent. `propagated` and `submitted` have the payloads passed to `PropagateGameData` and to
`SendGameData`, each with the key of the session it was passed for. -/
structure Exposed (C : Crypto) where
  server : Server C
  client : Client C
  network : List (List UInt8) := []
  propagated : List (ShortSharedKey × List UInt8) := []
  submitted : List (ShortSharedKey × List UInt8) := []

inductive ExposedAction (C : Crypto) where
  | server (action : ServerAction C)
  | client (action : ClientAction C)

/-- The attacker delivers what it likes from where it likes, but what verifies under the key
was sent by one of the two. -/
def Unforged (C : Crypto) (k : ShortSharedKey) (network : List (List UInt8)) : Arrival → Prop
  | none => True
  | some (_, d) => hmacType C k d ≠ .invalidPacket → d ∈ network

instance (network : List (List UInt8)) : (arrival : Arrival) → Decidable (Unforged C k network arrival)
  | none => .isTrue trivial
  | some (_, _) => inferInstanceAs (Decidable (_ → _))

/-- The sessions a call on the server passes a payload for. -/
def propagates (s : Server C) : ServerAction C → List (ShortSharedKey × List UInt8)
  | .propagateGameData data =>
    (([1, 2, 3] : List Slot).filter fun j => s.connected j).map
      fun j => ((s.connections j).sharedKey, data.bytes)
  | _ => []

def submits (c : Client C) : ClientAction C → List (ShortSharedKey × List UInt8)
  | .sendGameData data _ => if c.state = .connected then [(c.sharedKey, data.bytes)] else []
  | _ => []

namespace Exposed

def start (C : Crypto) : Exposed C where
  server := Server.create C
  client := {}

def step (k : ShortSharedKey) (e : Exposed C) : ExposedAction C → Option (Exposed C)
  | .server action =>
    if Unforged C k e.network action.arrival then
      (e.server.act action).map fun (s, sent) =>
        { e with
          server := s
          network := e.network ++ sent.map Outgoing.bytes
          propagated := e.propagated ++ propagates e.server action }
    else none
  | .client action =>
    if Unforged C k e.network action.arrival then
      (e.client.act action).map fun (c, sent) =>
        { e with
          client := c
          network := e.network ++ sent.map Outgoing.bytes
          submitted := e.submitted ++ submits e.client action }
    else none

/-- Whatever `Client::Listen` returns under the key is among the payloads. -/
def ClientReturns (e : Exposed C) (k : ShortSharedKey)
    (payloads : List (ShortSharedKey × List UInt8)) : Prop :=
  ∀ arrival p_size received now l g, Unforged C k e.network arrival → e.client.sharedKey = k →
    (e.client.listen arrival p_size received now).result = .ok l → l.gameData = some g →
    (k, g) ∈ payloads

/-- Whatever `Server::Listen` returns for a slot with the key is among the payloads. -/
def ServerReturns (e : Exposed C) (k : ShortSharedKey)
    (payloads : List (ShortSharedKey × List UInt8)) : Prop :=
  ∀ arrival seed p_size l (i : Slot) data, Unforged C k e.network arrival →
    (e.server.connections i).sharedKey = k → (e.server.listen arrival seed p_size).result = .ok l →
    l.gameData = some (nativeInt i.val ++ data) → (k, data) ∈ payloads

/-- The session with the key is established on both ends. -/
structure Session (e : Exposed C) (k : ShortSharedKey) (i : Slot) : Prop where
  slot : i ≠ 0
  connected : e.server.connected i = true
  slotKey : (e.server.connections i).sharedKey = k
  state : e.client.state = .connected
  clientKey : e.client.sharedKey = k

/-- All game data under the key that was sent has a payload that was passed to one end. -/
structure Traced (k : ShortSharedKey) (e : Exposed C) : Prop where
  tables : Tables e.server
  network : ∀ d ∈ e.network, hmacType C k d = .connectionData → ∃ sequence data,
    d = sealed C k (dataMessage sequence data) ∧ (k, data) ∈ e.propagated ++ e.submitted

end Exposed

theorem not_data_checked {t : PacketType} (ht : PacketType.ofByte t.toByte ≠ .connectionData)
    (key : List UInt8) : hmacType C k (checked t key) ≠ .connectionData := by
  intro h
  have htype := (hmacType_ne_invalid (by rw [h]; decide)).2.2
  rw [h, getD_checked] at htype
  exact ht htype.symm

theorem not_data_sealed {k' : ShortSharedKey} {t : PacketType}
    (ht : PacketType.ofByte t.toByte ≠ .connectionData) (bs : List UInt8) :
    hmacType C k (sealed C k' (header t ++ bs)) ≠ .connectionData := by
  intro h
  have htype := (hmacType_ne_invalid (by rw [h]; decide)).2.2
  rw [h, getD_sealed_header] at htype
  exact ht htype.symm

theorem not_data_header {k' : ShortSharedKey} {t : PacketType}
    (ht : PacketType.ofByte t.toByte ≠ .connectionData) :
    hmacType C k (sealed C k' (header t)) ≠ .connectionData := by
  rw [← List.append_nil (header t)]
  exact not_data_sealed ht []

/-- `Server::Listen` sends no game data. -/
theorem Heard.sends_no_data (h : Heard s seed arrival t sent) (ho : out ∈ sent) :
    hmacType C k out.bytes ≠ .connectionData := by
  cases h with
  | quiet | disconnect | withdraw => cases ho
  | challenge | rechallenge =>
    obtain rfl := List.mem_singleton.mp ho
    exact not_data_checked (by decide) _
  | accept =>
    obtain rfl := List.mem_singleton.mp ho
    exact not_data_sealed (by decide) _

/-- Of what a server sends, game data comes from `PropagateGameData`. -/
theorem server_sends_data (hT : Tables s) {action : ServerAction C}
    (h : s.act action = some (t, sent)) (ho : out ∈ sent)
    (hd : hmacType C k out.bytes = .connectionData) : ∃ k' sequence data,
      out.bytes = sealed C k' (dataMessage sequence data) ∧ (k', data) ∈ propagates s action := by
  cases action with
  | listen arrival seed p_size =>
    obtain ⟨-, rfl⟩ := Outcome.leaves_some h
    exact absurd hd ((listen_heard hT arrival seed p_size).sends_no_data ho)
  | propagateGameData data =>
    obtain ⟨-, rfl⟩ := Outcome.leaves_some h
    obtain ⟨j, hj, sequence, hc, rfl⟩ := propagateSlots_mem data ho
    exact ⟨_, sequence, data.bytes, rfl,
      List.mem_map.mpr ⟨j, List.mem_filter.mpr ⟨hj, hc⟩, rfl⟩⟩
  | switchToLobby => cases h; cases ho
  | switchToGame => cases h; cases ho

theorem connect_sends_no_data {x : C.Seed} (ho : out ∈ (c.connect x).sent) :
    hmacType C k out.bytes ≠ .connectionData := by
  have hconnects := connect_connects c x
  generalize (c.connect x).self = t at hconnects
  generalize (c.connect x).sent = sent at hconnects ho
  cases hconnects with
  | again | unwritten => cases ho
  | requested =>
    obtain rfl := List.mem_singleton.mp ho
    exact not_data_checked (by decide) _

theorem Ends.sends_no_data {now : Int} (h : Ends c now c' sent) (ho : out ∈ sent) :
    hmacType C k out.bytes ≠ .connectionData := by
  cases h with
  | stays => cases ho
  | times_out =>
    rw [List.eq_of_mem_replicate ho]
    exact not_data_header (by decide)

/-- Of what a client sends, game data comes from `SendGameData`. -/
theorem client_sends_data {action : ClientAction C} (h : c.act action = some (c', sent))
    (ho : out ∈ sent) (hd : hmacType C k out.bytes = .connectionData) : ∃ k' sequence data,
      out.bytes = sealed C k' (dataMessage sequence data) ∧ (k', data) ∈ submits c action := by
  cases action with
  | connect x =>
    obtain ⟨-, rfl⟩ := Outcome.leaves_some h
    exact absurd hd (connect_sends_no_data ho)
  | respondChallenge =>
    obtain ⟨o, hthread, hl⟩ := Option.bind_eq_some_iff.mp h
    obtain ⟨-, rfl⟩ := Outcome.leaves_some hl
    obtain ⟨n, -, rfl⟩ := runThread_some hthread
    obtain rfl := List.mem_singleton.mp ho
    exact absurd hd (not_data_header (by decide))
  | sendDisconnect =>
    obtain ⟨-, rfl⟩ := Outcome.leaves_some h
    rw [(sendDisconnect_leaves c).2 out ho] at hd
    exact absurd hd (not_data_header (by decide))
  | listen arrival p_size received now =>
    obtain ⟨-, rfl⟩ := Outcome.leaves_some h
    obtain ⟨t, -, hends⟩ := client_listen_noticed c arrival p_size received now
    exact absurd hd (hends.sends_no_data ho)
  | sendGameData data reported =>
    obtain ⟨-, rfl⟩ := Outcome.leaves_some h
    obtain ⟨hs, rfl⟩ := sendGameData_sends ho
    exact ⟨_, _, data.bytes, rfl, by simp [submits, hs]⟩
  | setActiveTimeout p_value => cases h; cases ho

section
variable (hmac : ∀ k k' m, C.hmacSha256 k m = C.hmacSha256 k' m → k = k')
include hmac

/-- A call keeps the trace when the game data it sends has a payload that is known by then. -/
theorem Exposed.Traced.sends {e u : Exposed C} (h : e.Traced k) (hT : Tables u.server)
    (hn : u.network = e.network ++ sent.map Outgoing.bytes)
    (hold : ∀ p ∈ e.propagated ++ e.submitted, p ∈ u.propagated ++ u.submitted)
    (hnew : ∀ out ∈ sent, hmacType C k out.bytes = .connectionData → ∃ k' sequence data,
      out.bytes = sealed C k' (dataMessage sequence data) ∧
        (k', data) ∈ u.propagated ++ u.submitted) : u.Traced k := by
  refine ⟨hT, fun d hd ht => ?_⟩
  rw [hn] at hd
  rcases List.mem_append.mp hd with hd | hd
  · obtain ⟨sequence, data, he, hp⟩ := h.network d hd ht
    exact ⟨sequence, data, he, hold _ hp⟩
  · obtain ⟨out, ho, rfl⟩ := List.mem_map.mp hd
    obtain ⟨k', sequence, data, he, hp⟩ := hnew out ho ht
    -- what verifies under the key was sealed under it
    rw [he] at ht ⊢
    obtain rfl := hmac _ _ _ (sealed_hmac (by rw [ht]; decide))
    exact ⟨sequence, data, rfl, hp⟩

theorem Exposed.step_traced {e u : Exposed C} {action : ExposedAction C} (h : e.Traced k)
    (hs : e.step k action = some u) : u.Traced k := by
  cases action with
  | server action =>
    rw [step] at hs
    split at hs
    · obtain ⟨⟨s, sent⟩, hact, rfl⟩ := Option.map_eq_some_iff.mp hs
      refine h.sends hmac (step_tables h.tables (by rw [← server_act_step, hact]; rfl)) rfl ?_ ?_
      · simp +contextual [or_imp]
      · intro out ho ht
        obtain ⟨k', sequence, data, he, hp⟩ := server_sends_data h.tables hact ho ht
        exact ⟨k', sequence, data, he, by simp [hp]⟩
    · cases hs
  | client action =>
    rw [step] at hs
    split at hs
    · obtain ⟨⟨c, sent⟩, hact, rfl⟩ := Option.map_eq_some_iff.mp hs
      refine h.sends hmac h.tables rfl ?_ ?_
      · simp +contextual [or_imp]
      · intro out ho ht
        obtain ⟨k', sequence, data, he, hp⟩ := client_sends_data hact ho ht
        exact ⟨k', sequence, data, he, by simp [hp]⟩
    · cases hs

end

namespace Exposed

variable {e u : Exposed C}

theorem start_traced : (start C).Traced k where
  tables := .create C
  network := by
    intro d hd
    cases hd

/-- Game data that arrives and verifies under the key holds a payload passed to one end. -/
theorem Traced.holding {data : List UInt8} (h : e.Traced k)
    (hu : hmacType C k d ≠ .invalidPacket → d ∈ e.network) (hl : d.length ≤ receiveSize)
    (ht : hmacType C k d = .connectionData) (hd : Holding d data) :
    (k, data) ∈ e.propagated ++ e.submitted := by
  obtain ⟨sequence, payload, rfl, hp⟩ := h.network d (hu (by rw [ht]; decide)) ht
  rwa [holding_sealed hl hd]

theorem Traced.clientReturns (h : e.Traced k) :
    e.ClientReturns k (e.propagated ++ e.submitted) := by
  intro arrival p_size received now l g hu hk hl hg
  obtain ⟨source, d, rfl, hd, -, ht, hh⟩ := client_listen_reports hl hg
  rw [hk] at ht
  exact h.holding hu hd ht hh

theorem Traced.serverReturns (h : e.Traced k) :
    e.ServerReturns k (e.propagated ++ e.submitted) := by
  intro arrival seed p_size l i data hu hk hl hg
  obtain ⟨sender, d, data', rfl, htakes, hh, he⟩ := server_listen_reports hl hg
  obtain ⟨j, hj, -, -, -⟩ := connection_found htakes.index
  rw [hj] at he
  obtain ⟨hij, rfl⟩ := List.append_inj he (by rw [length_nativeInt, length_nativeInt])
  obtain rfl := nativeInt_slot i j hij
  have ht := htakes.type
  rw [hj, slot_val, hk] at ht
  exact h.holding hu htakes.size ht hh

end Exposed

/-- Whatever either end returns of a session was passed for it to `PropagateGameData` or to
`SendGameData` of the client. A datagram does not tell which of the two. -/
theorem game_data_authentic
    (hmac : ∀ k k' m, C.hmacSha256 k m = C.hmacSha256 k' m → k = k')
    {actions : List (ExposedAction C)} {u : Exposed C}
    (h : Runs.run (Exposed.step k) (Exposed.start C) actions = some u) :
    u.ClientReturns k (u.propagated ++ u.submitted) ∧
      u.ServerReturns k (u.propagated ++ u.submitted) := by
  have htraced : u.Traced k :=
    Runs.invariant (fun _ _ _ ht hs => Exposed.step_traced hmac ht hs) Exposed.start_traced h
  exact ⟨htraced.clientReturns, htraced.serverReturns⟩

/-- A client joins, and each end sends one payload. -/
def sampleExposed (x y : Fin 8) : List (ExposedAction sample) :=
  (sampleAnswer (sampleAddress 9) x y).map .client ++
    (sampleJoin (sampleAddress 1) x y).map .server ++
    [.client (sampleAccepted (sampleAddress 9) x y), .server .switchToGame,
      .client (.sendGameData (samplePayload 7) true),
      .server (.propagateGameData (samplePayload 8))]

theorem game_data_authentic_sample :
    ∃ u, Runs.run (Exposed.step sampleShared) (Exposed.start sample) (sampleExposed 0 1) = some u ∧
      u.propagated ++ u.submitted = [(sampleShared, [8]), (sampleShared, [7])] ∧
      u.ClientReturns sampleShared (u.propagated ++ u.submitted) ∧
      u.ServerReturns sampleShared (u.propagated ++ u.submitted) := by
  have hrun : (Runs.run (Exposed.step sampleShared) (Exposed.start sample) (sampleExposed 0 1)).map
      (fun u => u.propagated ++ u.submitted) =
        some [(sampleShared, [8]), (sampleShared, [7])] := by decide +kernel
  obtain ⟨u, hu, hp⟩ := Option.map_eq_some_iff.mp hrun
  exact ⟨u, hu, hp, game_data_authentic sample_ideal.hmac_key_inj hu⟩

/-- A datagram with the first payload of one end, from the client's address. -/
def sampleOwn (data : List UInt8) : Arrival :=
  some (sampleAddress 1, sealed sample sampleShared (dataMessage 1 data))

/-- The session is open, and each end returns what it sent itself. -/
def SampleReflects (u : Exposed sample) (i : Slot) (y : Fin 8) : Prop :=
  (u.propagated = [(sampleShared, [8])] ∧ u.submitted = [(sampleShared, [7])]) ∧
  (u.server.connected i = true ∧ (u.server.connections i).sharedKey = sampleShared ∧
    u.client.state = .connected ∧ u.client.sharedKey = sampleShared) ∧
  (Unforged sample sampleShared u.network (sampleOwn [7]) ∧
    (u.client.listen (sampleOwn [7]) 1 0 0).result = .ok { ret := 1, gameData := some [7] }) ∧
  Unforged sample sampleShared u.network (sampleOwn [8]) ∧
    (u.server.listen (sampleOwn [8]) y 1024).result =
      .ok { ret := 1, gameData := some (nativeInt i.val ++ [8]) }

instance (u : Exposed sample) (i : Slot) (y : Fin 8) : Decidable (SampleReflects u i y) :=
  inferInstanceAs (Decidable (_ ∧ _))

theorem reflected_game_data :
    (¬ ∀ actions u i, Runs.run (Exposed.step sampleShared) (Exposed.start sample) actions = some u →
        u.Session sampleShared i → u.ClientReturns sampleShared u.propagated) ∧
      ¬ ∀ actions u i, Runs.run (Exposed.step sampleShared) (Exposed.start sample) actions = some u →
        u.Session sampleShared i → u.ServerReturns sampleShared u.submitted := by
  have hrun : (Runs.run (Exposed.step sampleShared) (Exposed.start sample) (sampleExposed 0 1)).map
      (fun u => decide (SampleReflects u 1 0)) = some true := by decide +kernel
  obtain ⟨u, hu, hd⟩ := Option.map_eq_some_iff.mp hrun
  obtain ⟨⟨hp, hs⟩, ⟨hc, hk, hstate, hck⟩, ⟨hcu, hcl⟩, hsu, hsl⟩ := of_decide_eq_true hd
  have hopen : u.Session sampleShared 1 := ⟨by decide, hc, hk, hstate, hck⟩
  constructor
  · intro h
    have hmem := h _ u 1 hu hopen _ _ _ _ _ _ hcu hck hcl rfl
    rw [hp] at hmem
    exact absurd hmem (by decide)
  · intro h
    have hmem := h _ u 1 hu hopen _ _ _ _ 1 [8] hsu hk hsl rfl
    rw [hs] at hmem
    exact absurd hmem (by decide)

end GameNetwork.Proofs
