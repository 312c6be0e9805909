import GameNetwork.Proofs.Agreement
import GameNetwork.Proofs.Authenticity
import GameNetwork.Proofs.History

namespace GameNetwork.Proofs

variable {C : Crypto} {ι : Type} {hosts : Hosts ι} {sys sys' : System C ι} {s t : Server C}
  {c c' : Client C} {i : ι} {a : Address} {d : Datagram} {sent : List Outgoing} {out : Outgoing}
  {arrival : Arrival} {seed : C.Seed}

/-- Nobody is at the broadcast address, and no client has the server's address or its port, where
the broadcasts are heard. The unset address is nobody's. -/
structure Star (hosts : Hosts ι) : Prop where
  server : hosts.server.address ≠ inaddrBroadcast
  unicast : ∀ i, (hosts.client i).address ≠ inaddrBroadcast
  port : ∀ i, (hosts.client i).port ≠ serverPort
  apart : ∀ i, hosts.client i ≠ hosts.server
  assigned : ∀ i, hosts.client i ≠ {}

def FromServer (hosts : Hosts ι) (d : Datagram) : Prop :=
  d.source = hosts.server ∧ ∃ i, d.destination = hosts.client i

def FromClient (hosts : Hosts ι) (d : Datagram) : Prop :=
  (∃ i, d.source = hosts.client i) ∧
    (d.destination = hosts.server ∨ d.destination = broadcastAddress ∨ d.destination = {})

theorem Star.reaches_client (h : Star hosts) (hd : FromServer hosts d ∨ FromClient hosts d)
    (hr : d.Reaches (hosts.client i)) :
    d.source = hosts.server ∧ d.destination = hosts.client i := by
  rcases hd with ⟨hs, i', hi'⟩ | ⟨-, hd⟩
  · rcases hr with hr | ⟨hr, -⟩
    · exact ⟨hs, hr⟩
    · rw [hi'] at hr
      exact absurd hr (h.unicast i')
  · rcases hr with hr | ⟨hr, hp⟩
    · rcases hd with hd | hd | hd
      · exact absurd (hr.symm.trans hd) (h.apart i)
      · rw [hd] at hr
        exact absurd (congrArg Address.port hr).symm (h.port i)
      · exact absurd (hr.symm.trans hd) (h.assigned i)
    · rcases hd with hd | hd | hd
      · rw [hd] at hr
        exact absurd hr h.server
      · rw [hd] at hp
        exact absurd hp.symm (h.port i)
      · rw [hd] at hr
        exact absurd hr (by decide)

theorem Star.reaches_server (h : Star hosts) (hd : FromServer hosts d ∨ FromClient hosts d)
    (hr : d.Reaches hosts.server) : ∃ i, d.source = hosts.client i := by
  rcases hd with ⟨-, i, hi⟩ | ⟨hd, -⟩
  · rcases hr with hr | ⟨hr, -⟩
    · exact absurd (hi.symm.trans hr) (h.apart i)
    · rw [hi] at hr
      exact absurd hr (h.unicast i)
  · exact hd

/-- An address that a call on a client can store or send to. -/
def Aims (c : Client C) (action : ClientAction C) (a : Address) : Prop :=
  a = c.serverAddress ∨ a = {} ∨ ∃ d, action.arrival = some (a, d)

theorem Noticed.aims {received now : Int} {p_size : UInt32}
    (h : Noticed c received arrival c') :
    Aims c (.listen arrival p_size received now) c'.serverAddress := by
  cases h with
  | failed => exact .inl rfl
  | reacted hd h =>
    cases h with
    | unverified | ignored | challenge | accepted | data => exact .inr (.inr ⟨_, rfl⟩)
    | dropped => exact .inr (.inl rfl)

/-- A client sends to the broadcast address or where it aims, and stores no other address. -/
theorem client_act_aims {action : ClientAction C} (h : c.act action = some (c', sent)) :
    Aims c action c'.serverAddress ∧
      ∀ out ∈ sent, out.destination = broadcastAddress ∨ Aims c action out.destination := by
  cases action with
  | connect x =>
    cases Connects.of_act h with
    | again | unwritten => exact ⟨.inl rfl, fun out ho => by cases ho⟩
    | requested =>
      refine ⟨.inl rfl, fun out ho => .inl ?_⟩
      obtain rfl := List.mem_singleton.mp ho
      rfl
  | respondChallenge =>
    obtain ⟨o, hthread, hl⟩ := Option.bind_eq_some_iff.mp h
    obtain ⟨rfl, rfl⟩ := Outcome.leaves_some hl
    obtain ⟨n, -, rfl⟩ := runThread_some hthread
    refine ⟨.inl rfl, fun out ho => .inr (.inl ?_)⟩
    obtain rfl := List.mem_singleton.mp ho
    rfl
  | sendDisconnect =>
    obtain ⟨rfl, rfl⟩ := Outcome.leaves_some h
    refine ⟨.inr (.inl (by rw [(sendDisconnect_leaves c).1]; rfl)), fun out ho => .inr (.inl ?_)⟩
    by_cases hs : c.state ≠ .disconnected ∧ c.state ≠ .sendingRequest
    · rw [sendDisconnect_active hs] at ho
      rw [List.eq_of_mem_replicate ho]
    · rw [sendDisconnect_idle hs] at ho
      cases ho
  | listen arrival p_size received now =>
    obtain ⟨rfl, rfl⟩ := Outcome.leaves_some h
    obtain ⟨m, hm, he⟩ := client_listen_noticed c arrival p_size received now
    generalize (c.listen arrival p_size received now).self = t at he ⊢
    generalize (c.listen arrival p_size received now).sent = sent at he ⊢
    cases he with
    | stays => exact ⟨hm.aims, fun out ho => by cases ho⟩
    | times_out =>
      refine ⟨.inr (.inl rfl), fun out ho => .inr ?_⟩
      rw [List.eq_of_mem_replicate ho]
      exact hm.aims
  | sendGameData data reported =>
    obtain ⟨rfl, rfl⟩ := Outcome.leaves_some h
    refine ⟨.inl ?_, fun out ho => .inr (.inl ?_)⟩
    · unfold Client.sendGameData
      split
      · dsimp only
        split <;> rfl
      · rfl
    · obtain ⟨-, rfl⟩ := sendGameData_sends ho
      rfl
  | setActiveTimeout p_value =>
    cases h
    exact ⟨.inl rfl, fun out ho => by cases ho⟩

/-- Where the addresses in the tables past slot 0 are from. -/
structure Addressed (P : Address → Prop) (s : Server C) : Prop where
  connections : ∀ j, j ≠ 0 → s.connected j = true → P (s.connections j).clientAddress
  challenges : s.challenged 1 = true → P (s.challenges 1).clientAddress

/-- `Listen` stores and sends to no other address than those in the tables and its sender's. -/
theorem Heard.addressed {P : Address → Prop} (h : Heard s seed arrival t sent) (hT : Tables s)
    (hs : Addressed P s) (ha : ∀ a d, arrival = some (a, d) → P a) :
    Addressed P t ∧ ∀ out ∈ sent, P out.destination := by
  have hnone : ∀ out ∈ ([] : List Outgoing), P out.destination := fun out ho => by cases ho
  have hone {a : Address} {bytes : List UInt8} (hP : P a) :
      ∀ out ∈ [(⟨a, bytes⟩ : Outgoing)], P out.destination := fun out ho => by
    obtain rfl := List.mem_singleton.mp ho
    exact hP
  cases h with
  | quiet hf =>
    have h := hf.alike
    refine ⟨⟨fun j hj hc => ?_, fun h1 => ?_⟩, hnone⟩
    · rw [h.connections]
      exact hs.connections j hj (h.connected ▸ hc)
    · rw [h.address]
      exact hs.challenges (h.challenged ▸ h1)
  | challenge =>
    have hP := ha _ _ rfl
    refine ⟨⟨hs.connections, fun _ => ?_⟩, hone hP⟩
    rw [withChallenge_challenges_one]
    exact hP
  | rechallenge _ _ _ _ hc hf =>
    refine ⟨⟨hs.connections, fun _ => ?_⟩, hone (ha _ _ rfl)⟩
    rw [withChallenge_challenges_one, restarted, hf.alike.address]
    exact hs.challenges (hT.challenged_at hc).1
  | @accept sender d j _ _ _ hc =>
    refine ⟨⟨fun i hi hci => ?_, fun h1 => ?_⟩, hone (ha _ _ rfl)⟩
    · by_cases hij : i = j
      · simp only [accepted, hij, Function.update_self]
        exact hs.challenges (hT.challenged_at hc).1
      · simp only [accepted, dropChallenge, Function.update_of_ne hij] at hci ⊢
        exact hs.connections i hi hci
    · simp [accepted, dropChallenge] at h1
  | disconnect =>
    refine ⟨⟨fun i hi hci => ?_, hs.challenges⟩, hnone⟩
    by_cases h1 : i = 1
    · simp [dropConnection, h1] at hci
    · simp only [dropConnection, Function.update_of_ne h1] at hci ⊢
      exact hs.connections i hi hci
  | withdraw => exact ⟨⟨hs.connections, fun h1 => by simp [dropChallenge] at h1⟩, hnone⟩

theorem server_act_addressed {P : Address → Prop} {action : ServerAction C} (hT : Tables s)
    (hs : Addressed P s) (ha : ∀ a d, action.arrival = some (a, d) → P a)
    (h : s.act action = some (t, sent)) : Addressed P t ∧ ∀ out ∈ sent, P out.destination := by
  cases action with
  | listen arrival seed p_size =>
    obtain ⟨rfl, rfl⟩ := Outcome.leaves_some h
    exact (listen_heard hT arrival seed p_size).addressed hT hs ha
  | propagateGameData data =>
    obtain ⟨rfl, rfl⟩ := Outcome.leaves_some h
    have hc := propagateSlots_counted data [1, 2, 3] s
    refine ⟨⟨fun j hj hcj => ?_, fun h1 => ?_⟩, fun out ho => ?_⟩
    · exact hc.address j ▸ hs.connections j hj (hc.connected ▸ hcj)
    · exact hc.challenges ▸ hs.challenges (hc.challenged ▸ h1)
    · obtain ⟨j, hj, sequence, hcj, rfl⟩ := propagateSlots_mem data ho
      refine hs.connections j ?_ hcj
      rintro rfl
      exact absurd hj (by decide)
  | switchToLobby | switchToGame =>
    cases h
    exact ⟨⟨hs.connections, hs.challenges⟩, fun out ho => by cases ho⟩

/-- The clients talk to the server only, and the server to the clients only. -/
structure Routed (hosts : Hosts ι) (sys : System C ι) : Prop where
  tables : Tables sys.server
  network : ∀ d ∈ sys.network, FromServer hosts d ∨ FromClient hosts d
  clients : ∀ i, (sys.clients i).serverAddress = {} ∨ (sys.clients i).serverAddress = hosts.server
  server : Addressed (fun a => ∃ i, a = hosts.client i) sys.server

theorem Routed.start (hosts : Hosts ι) : Routed hosts (System.start C ι) where
  tables := .create C
  network d hd := by cases hd
  clients _ := .inl rfl
  server := ⟨fun j hj hc => by simp [System.start, Server.create, hj] at hc,
    fun h1 => by simp [System.start, Server.create] at h1⟩

section
variable (hstar : Star hosts) (h : Routed hosts sys)
include hstar h

/-- Whatever a client hears is from the server, and meant for this client. -/
theorem Routed.heard_by_client {source : Address} {bytes : List UInt8}
    (ha : System.Arrives sys.network (hosts.client i) (some (source, bytes))) :
    source = hosts.server ∧ ⟨hosts.server, hosts.client i, bytes⟩ ∈ sys.network := by
  obtain ⟨d, hd, rfl, rfl, hr⟩ := ha
  obtain ⟨hs, hdest⟩ := hstar.reaches_client (h.network d hd) hr
  refine ⟨hs, ?_⟩
  rw [← hs, ← hdest]
  exact hd

theorem Routed.heard_by_server {source : Address} {bytes : List UInt8}
    (ha : System.Arrives sys.network hosts.server (some (source, bytes))) :
    ∃ i, source = hosts.client i := by
  obtain ⟨d, hd, rfl, -, hr⟩ := ha
  exact hstar.reaches_server (h.network d hd) hr

/-- A client that aims somewhere aims at the server. -/
theorem Routed.aims {action : ClientAction C}
    (ha : System.Arrives sys.network (hosts.client i) action.arrival)
    (haims : Aims (sys.clients i) action a) : a = {} ∨ a = hosts.server := by
  rcases haims with rfl | rfl | ⟨d, hd⟩
  · exact h.clients i
  · exact .inl rfl
  · rw [hd] at ha
    exact .inr (h.heard_by_client hstar ha).1

theorem step_routed [DecidableEq ι] {action : SystemAction C ι}
    (hstep : System.step hosts sys action = some sys') : Routed hosts sys' := by
  cases step_moves hstep with
  | @client i action c sent ha hact hf =>
    obtain ⟨hself, hsent⟩ := client_act_aims hact
    refine ⟨h.tables, fun d hd => ?_, fun i' => ?_, h.server⟩
    · rcases List.mem_append.mp hd with hd | hd
      · exact h.network d hd
      · obtain ⟨out, ho, rfl⟩ := List.mem_map.mp hd
        refine .inr ⟨⟨i, rfl⟩, ?_⟩
        rcases hsent out ho with hb | haims
        · exact .inr (.inl hb)
        · exact (h.aims hstar ha haims).elim (fun h => .inr (.inr h)) .inl
    · by_cases hii : i' = i
      · subst hii
        simpa [System.withClient] using h.aims hstar ha hself
      · simpa [System.withClient, hii] using h.clients i'
  | @server action t sent ha hact hf =>
    have hT : Tables t := step_tables h.tables (by rw [← server_act_step, hact]; rfl)
    obtain ⟨hself, hsent⟩ := server_act_addressed h.tables h.server
      (fun a d hd => h.heard_by_server hstar (hd ▸ ha)) hact
    refine ⟨hT, fun d hd => ?_, h.clients, hself⟩
    rcases List.mem_append.mp hd with hd | hd
    · exact h.network d hd
    · obtain ⟨out, ho, rfl⟩ := List.mem_map.mp hd
      exact .inl ⟨rfl, hsent out ho⟩

end

section
variable [DecidableEq ι] (hstar : Star hosts) {actions : List (SystemAction C ι)}
  (hrun : Runs.run (System.step hosts) (System.start C ι) actions = some sys)
include hstar hrun

theorem run_routed : Routed hosts sys :=
  Runs.invariant (fun _ _ _ h hs => step_routed hstar h hs) (.start hosts) hrun

end

/-- A datagram that a step has put on the network was sent by the call the step is. -/
theorem step_sends [DecidableEq ι] {action : SystemAction C ι}
    (hstep : System.step hosts sys action = some sys') (hn : d ∉ sys.network)
    (hd : d ∈ sys'.network) :
    (∃ i act c sent, action = .client i act ∧ (sys.clients i).act act = some (c, sent) ∧
      ∃ out ∈ sent, d = ⟨hosts.client i, out.destination, out.bytes⟩) ∨
    ∃ act t sent, action = .server act ∧ sys.server.act act = some (t, sent) ∧
      ∃ out ∈ sent, d = ⟨hosts.server, out.destination, out.bytes⟩ := by
  cases step_moves hstep with
  | @client i act c sent ha hact hf =>
    rcases List.mem_append.mp hd with hd | hd
    · exact absurd hd hn
    · obtain ⟨out, ho, rfl⟩ := List.mem_map.mp hd
      exact .inl ⟨i, act, c, sent, rfl, hact, out, ho, rfl⟩
  | @server act t sent ha hact hf =>
    rcases List.mem_append.mp hd with hd | hd
    · exact absurd hd hn
    · obtain ⟨out, ho, rfl⟩ := List.mem_map.mp hd
      exact .inr ⟨act, t, sent, rfl, hact, out, ho, rfl⟩

/-- A client passes the payload to `SendGameData` in its session under the key. -/
def Submits (i : ι) (k : ShortSharedKey) (data : List UInt8) (u : System C ι) :
    SystemAction C ι → Prop
  | .client i' action => i' = i ∧ (k, data) ∈ submits (u.clients i) action
  | .server _ => False

/-- The payload is passed to `PropagateGameData` while a slot has the address and the key. -/
def Propagated (a : Address) (k : ShortSharedKey) (data : List UInt8) (u : System C ι) :
    SystemAction C ι → Prop
  | .server (.propagateGameData p) => p.bytes = data ∧ ∃ j, j ≠ 0 ∧ InSlot j a k u.server
  | _ => False

section
variable [DecidableEq ι] (hmac : ∀ k k' m, C.hmacSha256 k m = C.hmacSha256 k' m → k = k')
  (hstar : Star hosts) {actions : List (SystemAction C ι)}
  (hrun : Runs.run (System.step hosts) (System.start C ι) actions = some sys)
include hmac hstar hrun

/-- Game data under a key that a client put on the network holds a payload the client passed to
`SendGameData` under that key. -/
theorem submitted_before {k : ShortSharedKey} {data : List UInt8} (hd : d ∈ sys.network)
    (hs : d.source = hosts.client i) (hl : d.bytes.length ≤ receiveSize)
    (ht : hmacType C k d.bytes = .connectionData) (hh : Holding d.bytes data) :
    Runs.Happened (System.step hosts) (Submits i k data) (System.start C ι) actions := by
  refine Runs.Since.happened (P := fun u => d ∈ u.network) ?_
  refine Runs.since hrun (fun h => by cases h) hd fun _ u action v _ hnot hv hin => ?_
  rcases step_sends hv hnot hin with ⟨i', act, c, sent, rfl, hact, out, ho, rfl⟩ |
    ⟨_, _, _, _, _, out, _, rfl⟩
  · obtain rfl := hosts.client_injective hs
    obtain ⟨k', sequence, payload, he, hp⟩ := client_sends_data hact ho ht
    dsimp only at hl hh ht
    rw [he] at hl hh ht
    obtain rfl := hmac _ _ _ (sealed_hmac (by rw [ht]; decide))
    exact ⟨rfl, holding_sealed hl hh ▸ hp⟩
  · exact absurd hs.symm (hstar.apart i)

/-- Game data under a key that the server sent to a client holds a payload that was passed to
`PropagateGameData` while a slot had the client's address and that key. -/
theorem propagated_before {k : ShortSharedKey} {data : List UInt8} (hd : d ∈ sys.network)
    (hs : d.source = hosts.server) (hl : d.bytes.length ≤ receiveSize)
    (ht : hmacType C k d.bytes = .connectionData) (hh : Holding d.bytes data) :
    Runs.Happened (System.step hosts) (Propagated d.destination k data) (System.start C ι)
      actions := by
  refine Runs.Since.happened (P := fun u => d ∈ u.network) ?_
  refine Runs.since hrun (fun h => by cases h) hd fun before u action v hu hnot hv hin => ?_
  have hT := (run_routed hstar hu).tables
  rcases step_sends hv hnot hin with ⟨i, _, _, _, _, _, out, _, rfl⟩ |
    ⟨act, t, sent, rfl, hact, out, ho, rfl⟩
  · exact absurd hs (hstar.apart i)
  · dsimp only at hl hh ht
    cases act with
    | listen arrival seed p_size =>
      obtain ⟨-, rfl⟩ := Outcome.leaves_some hact
      exact absurd ht ((listen_heard hT arrival seed p_size).sends_no_data ho)
    | propagateGameData p =>
      obtain ⟨-, rfl⟩ := Outcome.leaves_some hact
      obtain ⟨j, hj, sequence, hc, rfl⟩ := propagateSlots_mem p ho
      dsimp only at hl hh ht
      refine ⟨(holding_sealed hl hh).symm, j, ?_, hc, rfl, ?_⟩
      · rintro rfl
        exact absurd hj (by decide)
      · exact (hmac _ _ _ (sealed_hmac (by rw [ht]; decide))).symm
    | switchToLobby => cases hact; cases ho
    | switchToGame => cases hact; cases ho

/-- Whatever the server returns for a slot was passed to `SendGameData` by the very client that
the slot belongs to, under the key of the slot. -/
theorem uplink_attributed {arrival : Arrival} {seed : C.Seed} {p_size : UInt32} {l : Listened}
    {g : List UInt8} (ha : System.Arrives sys.network hosts.server arrival)
    (hl : (sys.server.listen arrival seed p_size).result = .ok l) (hg : l.gameData = some g) :
    ∃ (j : Slot) (i : ι) (k : ShortSharedKey) (data : List UInt8),
      g = nativeInt j.val ++ data ∧ InSlot j (hosts.client i) k sys.server ∧
        Runs.Happened (System.step hosts) (Submits i k data) (System.start C ι) actions := by
  obtain ⟨sender, bytes, data, rfl, htakes, hh, rfl⟩ := server_listen_reports hl hg
  obtain ⟨j, hj, -, hc, hsender⟩ := connection_found htakes.index
  obtain ⟨i, hi⟩ := (run_routed hstar hrun).heard_by_server hstar ha
  obtain ⟨d, hd, hs, rfl, -⟩ := ha
  have ht := htakes.type
  rw [hj, slot_val] at ht
  refine ⟨j, i, (sys.server.connections j).sharedKey, data, by rw [hj],
    ⟨hc, hsender.trans hi, rfl⟩, ?_⟩
  exact submitted_before hmac hstar hrun hd (hs.trans hi) htakes.size ht hh

/-- Whatever a client returns was passed to `PropagateGameData` while a slot had the client's
address and its key, so that no client reads what it or another client sent. -/
theorem downlink_attributed {arrival : Arrival} {p_size : UInt32} {received now : Int}
    {l : Listened} {g : List UInt8}
    (ha : System.Arrives sys.network (hosts.client i) arrival)
    (hl : ((sys.clients i).listen arrival p_size received now).result = .ok l)
    (hg : l.gameData = some g) :
    Runs.Happened (System.step hosts)
      (Propagated (hosts.client i) (sys.clients i).sharedKey g) (System.start C ι) actions := by
  obtain ⟨source, bytes, rfl, hsize, -, ht, hh⟩ := client_listen_reports hl hg
  obtain ⟨-, hd⟩ := (run_routed hstar hrun).heard_by_client hstar ha
  exact propagated_before hmac hstar hrun hd rfl hsize ht hh

end

theorem sample_star : Star sampleHosts := ⟨by decide, by decide, by decide, by decide, by decide⟩

/-- A client joins, and each end sends one payload. -/
def sampleTraffic (i : Fin 2) (x y : Fin 8) (j : Slot) : List (SystemAction sample (Fin 2)) :=
  sampleJoins i x y j ++ [.server .switchToGame, .client i (.sendGameData (samplePayload 7) true),
    .server (.propagateGameData (samplePayload 8))]

def sampleUp (i : Fin 2) : Arrival :=
  some (sampleHosts.client i, sealed sample sampleShared (dataMessage 1 [7]))

def sampleDown : Arrival :=
  some (sampleHosts.server, sealed sample sampleShared (dataMessage 1 [8]))

theorem toOption_some {α : Type} {r : Except Fault α} {v : α} (h : r.toOption = some v) :
    r = .ok v := by
  cases r with
  | error e => cases h
  | ok w => cases h; rfl

theorem uplink_attributed_sample :
    ∃ sys, Runs.run (System.step sampleHosts) (System.start sample (Fin 2))
        (sampleTraffic 0 0 1 1) = some sys ∧
      ∃ (j : Slot) (i : Fin 2) (k : ShortSharedKey) (data : List UInt8),
        nativeInt 1 ++ [7] = nativeInt j.val ++ data ∧
          InSlot j (sampleHosts.client i) k sys.server ∧
          Runs.Happened (System.step sampleHosts) (Submits i k data) (System.start sample (Fin 2))
            (sampleTraffic 0 0 1 1) := by
  have hrun : (Runs.run (System.step sampleHosts) (System.start sample (Fin 2))
      (sampleTraffic 0 0 1 1)).map
      (fun sys => decide (System.Arrives sys.network sampleHosts.server (sampleUp 0) ∧
        (sys.server.listen (sampleUp 0) (0 : Fin 8) 64).result.toOption =
          some { ret := 1, gameData := some (nativeInt 1 ++ [7]) })) = some true := by
    decide +kernel
  obtain ⟨sys, hs, hd⟩ := Option.map_eq_some_iff.mp hrun
  obtain ⟨ha, hl⟩ := of_decide_eq_true hd
  exact ⟨sys, hs,
    uplink_attributed sample_ideal.hmac_key_inj sample_star hs ha (toOption_some hl) rfl⟩

theorem downlink_attributed_sample :
    ∃ sys, Runs.run (System.step sampleHosts) (System.start sample (Fin 2))
        (sampleTraffic 0 0 1 1) = some sys ∧
      Runs.Happened (System.step sampleHosts)
        (Propagated (sampleHosts.client 0) (sys.clients 0).sharedKey [8])
        (System.start sample (Fin 2)) (sampleTraffic 0 0 1 1) := by
  have hrun : (Runs.run (System.step sampleHosts) (System.start sample (Fin 2))
      (sampleTraffic 0 0 1 1)).map
      (fun sys => decide (System.Arrives sys.network (sampleHosts.client 0) sampleDown ∧
        ((sys.clients 0).listen sampleDown 64 0 0).result.toOption =
          some { ret := 1, gameData := some [8] })) = some true := by
    decide +kernel
  obtain ⟨sys, hs, hd⟩ := Option.map_eq_some_iff.mp hrun
  obtain ⟨ha, hl⟩ := of_decide_eq_true hd
  exact ⟨sys, hs,
    downlink_attributed sample_ideal.hmac_key_inj sample_star hs ha (toOption_some hl) rfl⟩

end GameNetwork.Proofs
