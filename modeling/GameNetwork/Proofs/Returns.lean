import GameNetwork.Proofs.Agreement
import GameNetwork.Proofs.Escapes
import GameNetwork.Proofs.Parties
import GameNetwork.Proofs.Propagate
import GameNetwork.Proofs.Refused

namespace GameNetwork.Proofs
open Buffer

section
variable {C : Crypto} {s : Server C} {sender : Address} {d bs : List UInt8} {b b' : Buffer}
  {n : Nat} {fault : Fault} {seed : C.Seed} {p_size : UInt32} {arrival : Arrival}

/-- A verified datagram claims a payload so large that the sum in the check of the read wraps. -/
def Wraps (d : List UInt8) : Prop := 2 ^ 32 ≤ 11 + (gameDataSizeOf d).toNat

instance : Decidable (Wraps d) := inferInstanceAs (Decidable (_ ≤ _))

/-- In the `GAME` state the server takes the datagram for game data, and reads past its buffer. -/
def Overruns (s : Server C) : Arrival → Prop
  | some (sender, d) => d.length ≤ receiveSize ∧ s.state = .game ∧
      classify s sender d = .ok (some .connectionData) ∧ Wraps d
  | none => False

instance (s : Server C) : (arrival : Arrival) → Decidable (Overruns s arrival)
  | some (_, _) => inferInstanceAs (Decidable (_ ∧ _))
  | none => .isFalse id

theorem load_error (h : (load n).run b = .error fault b') : fault = .undefinedBehaviour := by
  rw [load, ok_bind (EStateM.run_get _)] at h
  split at h
  · rw [ok_bind (EStateM.run_set _ _)] at h
    cases h
  · cases h
    rfl

/-- The loop of `ReadBuffer` checks nothing, so it throws nothing. -/
theorem readBytes_error (h : (readBytes n).run b = .error fault b') :
    fault = .undefinedBehaviour := by
  induction n generalizing b with
  | zero => cases h
  | succ n ih =>
    rw [readBytes] at h
    cases hl : (load 1).run b with
    | error e c =>
      rw [error_bind hl] at h
      cases h
      exact load_error hl
    | ok x c =>
      rw [ok_bind hl] at h
      cases hr : (readBytes n).run c with
      | error e c' =>
        rw [error_bind hr] at h
        cases h
        exact ih hr
      | ok y c' => rw [ok_bind hr] at h; cases h

/-- A wrapped check passes, and the loop leaves the allocation. -/
theorem readBuffer_wraps {rest : List UInt8} (hall : (d ++ rest).length ≤ receiveSize)
    (hd : 11 ≤ d.length) (hn : n < 2 ^ 32) (hw : 2 ^ 32 ≤ 11 + n) :
    ∃ b', (readBuffer n).run (view d rest 11) = .error .undefinedBehaviour b' := by
  rw [List.length_append, receiveSize] at hall
  have hcheck : (checkRoomUnsigned n readText).run (view d rest 11) = .ok () (view d rest 11) := by
    have hsize : uint32 ((d.length : Nat) : Int) = d.length := uint32_eq (by omega) (by omega)
    have hsum : uint32 ((11 : Nat) + (n : Int)) = 11 + n - 2 ^ 32 := by
      rw [uint32]
      omega
    rw [checkRoomUnsigned, ok_bind (EStateM.run_get _)]
    simp only [view_size, view_index, hsize, hsum]
    rw [if_neg (by omega)]
    rfl
  rw [readBuffer, ok_bind hcheck]
  cases hr : (readBytes n).run (view d rest 11) with
  | error e b' => exact ⟨b', by rw [readBytes_error hr]⟩
  | ok bs b' =>
    have := readBytes_ok hr (.inr (by omega))
    simp only [view_index, view_data, List.length_append] at this
    omega

/-- A game-data packet that is not read is refused, unless the sum in the check wraps. -/
theorem data_read_error (hb : AtBody d b) (h : ConnectionDataPacket.read.run b = .error fault b') :
    fault = if Wraps d ∧ 11 ≤ d.length then .undefinedBehaviour else .outOfRange readText := by
  obtain ⟨d', rest, hlen, hdrop, hall, rfl⟩ := hb
  have hd : d'.length < 2 ^ 31 := by
    rw [List.length_append, receiveSize] at hall
    omega
  by_cases h7 : d'.length < 7
  · rw [ConnectionDataPacket.read, error_bind (readShort_view_short (by omega) (by omega))] at h
    cases h
    rw [if_neg (by omega)]
  by_cases h11 : d'.length < 11
  · have hs := readShort_view (r := rest) (i := 5) hd (by omega)
    rw [ConnectionDataPacket.read, ok_bind hs,
      error_bind (readInteger_view_short (by omega) (by omega))] at h
    cases h
    rw [if_neg (by omega)]
  rw [data_read_head hd (by omega), gameDataSizeOf_congr hdrop] at h
  have hn := (gameDataSizeOf d).toNat_lt
  by_cases hw : Wraps d
  · obtain ⟨c, hr⟩ := readBuffer_wraps hall (by omega) hn hw
    rw [error_bind hr] at h
    cases h
    rw [if_pos ⟨hw, by omega⟩]
  · rw [if_neg (fun h => hw h.1)]
    have hsum : 11 + (gameDataSizeOf d).toNat < 2 ^ 32 := by
      unfold Wraps at hw
      omega
    by_cases hin : 11 + (gameDataSizeOf d).toNat ≤ d'.length
    · rw [ok_bind (readBuffer_view hd hin)] at h
      cases h
    · rw [error_bind (readBuffer_view_short (by omega) hsum)] at h
      cases h
      rfl

theorem catchStd_returns {o : Outcome (Server C) Listened} {value : Listened}
    (h : ∀ e, o.result = .error e → e.isStdException = true) :
    ∃ l, (o.catchStd value).result = .ok l := by
  unfold Outcome.catchStd
  split
  · rename_i e he
    rw [if_pos (h e he)]
    exact ⟨value, rfl⟩
  · rename_i l hl
    exact ⟨l, hl⟩

theorem returning_ok {o : Outcome (Server C) Unit} {value : Listened} (h : o.result = .ok ())
    (e : Fault) : (o.returning value).result = .error e → e.isStdException = true := by
  rw [Outcome.returning, h]
  intro h
  cases h

theorem handleRequest_result (hC : 5 + C.roundedPublicKeySize < 2 ^ 31) (s : Server C)
    (packet : ConnectionRequestPacket C) :
    (s.handlePacketConnectionRequest packet sender seed).result = .ok () := by
  unfold Server.handlePacketConnectionRequest
  dsimp only
  split
  · split
    · rw [Server.sendChallenge]
      simp only [written_challenge hC]
    · rfl
  · rw [Server.sendChallenge]
    simp only [written_challenge hC]

theorem handleResponse_result (s : Server C) (sender : Address) :
    (s.handlePacketChallengeResponse sender).result = .ok () := by
  unfold Server.handlePacketChallengeResponse
  dsimp only
  split
  · split
    · simp only [written_connectionAccepted]
    · rfl
  · rfl

theorem request_error (hC : 5 + C.roundedPublicKeySize < 2 ^ 31) (hb : AtBody d b)
    (h : (ConnectionRequestPacket.read C).run b = .error fault b') :
    fault = .outOfRange readText := by
  by_cases hk : 5 + C.roundedPublicKeySize ≤ d.length
  · obtain ⟨c, hr⟩ := request_read hb hk
    rw [hr] at h
    cases h
  · obtain ⟨d', rest, hlen, -, -, rfl⟩ := hb
    rw [ConnectionRequestPacket.read,
      error_bind (readBuffer_view_short (by omega) (by omega))] at h
    exact (EStateM.Result.error.inj h).1.symm

/-- Of the cases of the `switch`, only that of game data can leave its allocation. -/
theorem dispatch_throws {t : PacketType} (hC : 5 + C.roundedPublicKeySize < 2 ^ 31)
    (hb : t ≠ .invalidPacket → AtBody d b) (ht : ¬ (t = .connectionData ∧ s.state = .game))
    (h : (s.dispatch t sender b seed p_size).result = .error fault) :
    fault.isStdException = true := by
  cases t with
  | connectionRequest =>
    rw [Server.dispatch] at h
    split at h
    · split at h
      · exact returning_ok (handleRequest_result hC s _) fault h
      · rename_i hr
        cases h
        rw [request_error hC (hb (by simp)) hr]
        rfl
    · cases h
  | challengeResponse =>
    rw [Server.dispatch] at h
    split at h
    · exact returning_ok (handleResponse_result s sender) fault h
    · cases h
  | connectionData =>
    rw [Server.dispatch, if_neg fun hs => ht ⟨rfl, hs⟩] at h
    cases h
  | disconnect =>
    simp only [Server.dispatch, DisconnectPacket.read, EStateM.run_pure] at h
    split at h
    · cases h
    · cases h
  | invalidPacket | challenge | connectionAccepted | other => cases h

/-- The `CONNECTION_DATA` case in the `GAME` state. -/
theorem dispatch_data_throws (sender : Address) (seed : C.Seed) (p_size : UInt32)
    (hs : s.state = .game) (hb : AtBody d b) (hd : 11 ≤ d.length) :
    if Wraps d then (s.dispatch .connectionData sender b seed p_size).result =
        .error .undefinedBehaviour
    else ∀ e, (s.dispatch .connectionData sender b seed p_size).result = .error e →
      e.isStdException = true := by
  rw [Server.dispatch, if_pos hs]
  cases hr : ConnectionDataPacket.read.run b with
  | ok packet b' =>
    have hnot : ¬ Wraps d := by
      intro hw
      have hlen : d.length ≤ receiveSize := by
        obtain ⟨d', rest, hlen, -, hall, -⟩ := hb
        rw [List.length_append] at hall
        omega
      rw [receiveSize] at hlen
      unfold Wraps at hw
      obtain ⟨e, c, he⟩ := data_read_past hb (by omega)
      rw [hr] at he
      cases he
    rw [if_neg hnot]
    intro e he
    dsimp only at he
    split at he
    · split at he
      · cases he
      · cases he
    · cases he
  | error e b' =>
    have he := data_read_error hb hr
    by_cases hw : Wraps d
    · rw [if_pos ⟨hw, hd⟩] at he
      rw [if_pos hw, he]
      rfl
    · rw [if_neg fun h => hw h.1] at he
      rw [if_neg hw]
      intro e' he'
      cases he'
      rw [he]
      rfl

theorem server_listen_result (hC : 5 + C.roundedPublicKeySize < 2 ^ 31) (s : Server C)
    (arrival : Arrival) (seed : C.Seed) (p_size : UInt32) :
    if Overruns s arrival then (s.listen arrival seed p_size).result = .error .undefinedBehaviour
    else ∃ l, (s.listen arrival seed p_size).result = .ok l := by
  rcases receive_cases arrival with hf | ⟨sender, d, rfl, hd⟩
  · have hno : ¬ Overruns s arrival := by
      cases arrival with
      | none => exact id
      | some p => exact fun h => absurd h.1 (Nat.not_le_of_lt (hf p.1 p.2 rfl))
    rw [if_neg hno, listen_failed hf]
    exact ⟨_, rfl⟩
  obtain ⟨b, hl, hb⟩ := listen_received s sender seed p_size hd
  have hf := prepared_connections s sender
  by_cases hdata : classify s sender d = .ok (some .connectionData) ∧ s.state = .game
  · obtain ⟨hcl, hgame⟩ := hdata
    have hlen := classify_length hcl (by simp) (by simp)
    have h := dispatch_data_throws sender seed p_size (hf.2.2.trans hgame) (hb _ hcl (by simp))
      (by omega)
    rw [hl, hcl]
    by_cases hw : Wraps d
    · rw [if_pos hw] at h
      rw [if_pos (show Overruns s (some (sender, d)) from ⟨hd, hgame, hcl, hw⟩)]
      simp [Outcome.catchStd, h, Fault.isStdException]
    · rw [if_neg hw] at h
      rw [if_neg (show ¬ Overruns s (some (sender, d)) from fun h => hw h.2.2.2)]
      exact catchStd_returns h
  · have hno : ¬ Overruns s (some (sender, d)) := fun h => hdata ⟨h.2.2.1, h.2.1⟩
    rw [if_neg hno, hl]
    apply catchStd_returns
    intro e he
    cases hc : classify s sender d with
    | error fault =>
      rw [hc] at he
      cases he
      rw [classify_error hc]
      rfl
    | ok v =>
      rw [hc] at he
      cases v with
      | none => cases he
      | some t =>
        refine dispatch_throws hC (hb t hc) ?_ he
        rintro ⟨rfl, hgame⟩
        exact hdata ⟨hc, hf.2.2 ▸ hgame⟩

/-- `Server::Listen` comes back to its caller from whatever arrives, unless a verified packet of
game data makes it read past its buffer; an exception it never lets through. -/
theorem server_listen_returns_iff (hC : 5 + C.roundedPublicKeySize < 2 ^ 31) (s : Server C)
    (arrival : Arrival) (seed : C.Seed) (p_size : UInt32) :
    ((∃ l, (s.listen arrival seed p_size).result = .ok l) ↔ ¬ Overruns s arrival) ∧
      (Overruns s arrival →
        (s.listen arrival seed p_size).result = .error .undefinedBehaviour) := by
  have h := server_listen_result hC s arrival seed p_size
  split at h
  · rename_i ho
    rw [h]
    exact ⟨iff_of_false (fun ⟨l, hl⟩ => by cases hl) (not_not_intro ho), fun _ => rfl⟩
  · rename_i ho
    exact ⟨iff_of_true h ho, fun h => absurd h ho⟩

/-- Game data of a client in its session that claims the largest payload there is. -/
def hugeData : List UInt8 :=
  sealed sample sampleShared
    (header .connectionData ++ Bytes.be 2 1 ++ Bytes.be 4 (2 ^ 32 - 1))

/-- A client that is let in can crash the server. -/
theorem server_overrun : ∃ s : Server sample, Runs.run Server.step (Server.create sample)
      (sampleJoin (sampleAddress 1) 0 1 ++ [.switchToGame]) = some s ∧
    (s.listen (some (sampleAddress 1, hugeData)) (0 : Fin 8) 64).result =
      .error .undefinedBehaviour := by
  have hrun : (Runs.run Server.step (Server.create sample)
      (sampleJoin (sampleAddress 1) 0 1 ++ [.switchToGame])).map
      (fun s => decide (Overruns s (some (sampleAddress 1, hugeData)))) = some true := by
    decide +kernel
  obtain ⟨s, hs, hd⟩ := Option.map_eq_some_iff.mp hrun
  exact ⟨s, hs, (server_listen_returns_iff (by decide) s _ (0 : Fin 8) 64).2 (of_decide_eq_true hd)⟩

end

section
variable {C : Crypto} {ι : Type} {hosts : Hosts ι} {sys sys' : System C ι} {s t : Server C}
  {c c' : Client C} {d : List UInt8} {sent : List Outgoing} {arrival : Arrival} {seed : C.Seed}

/-- The parties send nothing but whole messages. -/
def Whole (C : Crypto) (sent : List Outgoing) : Prop :=
  ∀ out ∈ sent, ∃ m : Message C, out.bytes = m.bytes

theorem Whole.nil : Whole C [] := fun _ h => by cases h

theorem Whole.singleton {a : Address} {bytes : List UInt8} (m : Message C) (h : bytes = m.bytes) :
    Whole C [⟨a, bytes⟩] := fun out ho => by
  obtain rfl := List.mem_singleton.mp ho
  exact ⟨m, h⟩

/-- A pending challenge has a public key from a pair of its own. -/
def Paired (s : Server C) : Prop :=
  s.challenged 1 = true → ∃ y, (s.challenges 1).serverPublicKey = C.publicKey y

theorem Heard.whole (h : Heard s seed arrival t sent) (hT : Tables s) (hp : Paired s) :
    Paired t ∧ Whole C sent := by
  cases h with
  | quiet hf =>
    refine ⟨fun h1 => ?_, .nil⟩
    rw [hf.alike.serverPublicKey]
    exact hp (hf.alike.challenged ▸ h1)
  | challenge =>
    refine ⟨fun _ => ⟨seed, ?_⟩, .singleton (.challenge seed) rfl⟩
    rw [withChallenge_challenges_one]
    rfl
  | rechallenge _ _ _ _ hc hf =>
    obtain ⟨y, hy⟩ := hp (hT.challenged_at hc).1
    refine ⟨fun _ => ⟨y, ?_⟩, .singleton (.challenge y) (by rw [hy]; rfl)⟩
    rw [withChallenge_challenges_one, restarted, hf.alike.serverPublicKey, hy]
  | @accept _ _ j =>
    refine ⟨fun h1 => by simp [accepted, dropChallenge] at h1, ?_⟩
    exact .singleton (.accepted (s.challenges 1).resolved.sharedKey j) rfl
  | disconnect => exact ⟨hp, .nil⟩
  | withdraw => exact ⟨fun h1 => by simp [dropChallenge] at h1, .nil⟩

theorem server_act_whole {action : ServerAction C} (hT : Tables s) (hp : Paired s)
    (h : s.act action = some (t, sent)) : Paired t ∧ Whole C sent := by
  cases action with
  | listen arrival seed p_size =>
    obtain ⟨rfl, rfl⟩ := Outcome.leaves_some h
    exact (listen_heard hT arrival seed p_size).whole hT hp
  | propagateGameData data =>
    obtain ⟨rfl, rfl⟩ := Outcome.leaves_some h
    have hc := propagateSlots_counted data [1, 2, 3] s
    refine ⟨fun h1 => ?_, fun out ho => ?_⟩
    · exact hc.challenges ▸ hp (hc.challenged ▸ h1)
    · obtain ⟨j, -, sequence, -, rfl⟩ := propagateSlots_mem data ho
      exact ⟨.data (s.connections j).sharedKey sequence data.bytes, rfl⟩
  | switchToLobby | switchToGame =>
    cases h
    exact ⟨hp, .nil⟩

/-- The message is one that the client of a challenge can say to it, under its key. -/
def Answers (k : ShortSharedKey) (m : Message C) : Prop := m = .response k ∨ m = .disconnect k

/-- What a client sends apart from game data and requests it seals with the key it has. -/
theorem client_act_answers {action : ClientAction C} {out : Outgoing}
    (h : c.act action = some (c', sent)) (ho : out ∈ sent) :
    ∃ m : Message C, out.bytes = m.bytes ∧
      (Answers c.sharedKey m ∨ m.type ≠ .challengeResponse ∧ m.type ≠ .disconnect) := by
  cases action with
  | connect x =>
    cases Connects.of_act h with
    | again | unwritten => cases ho
    | requested =>
      obtain rfl := List.mem_singleton.mp ho
      exact ⟨.request x, rfl, .inr (by simp [Message.type])⟩
  | respondChallenge =>
    obtain ⟨o, hthread, hl⟩ := Option.bind_eq_some_iff.mp h
    obtain ⟨-, rfl⟩ := Outcome.leaves_some hl
    obtain ⟨n, -, rfl⟩ := runThread_some hthread
    obtain rfl := List.mem_singleton.mp ho
    exact ⟨.response c.sharedKey, rfl, .inl (.inl rfl)⟩
  | sendDisconnect =>
    obtain ⟨-, rfl⟩ := Outcome.leaves_some h
    exact ⟨_, (sendDisconnect_leaves c).2 out ho, .inl (.inr rfl)⟩
  | listen arrival p_size received now =>
    obtain ⟨-, rfl⟩ := Outcome.leaves_some h
    obtain ⟨t, ht, he⟩ := client_listen_noticed c arrival p_size received now
    generalize (c.listen arrival p_size received now).self = u at he
    generalize (c.listen arrival p_size received now).sent = sent at he ho
    cases he with
    | stays => cases ho
    | times_out _ hs =>
      -- a client that is connected has not got a key by this call
      have hkey : t.sharedKey = c.sharedKey := by
        cases ht with
        | failed => rfl
        | reacted _ hr =>
          cases hr with
          | unverified | ignored | accepted | data => rfl
          | challenge _ hreq => cases hreq.symm.trans hs
          | dropped => cases hs
      refine ⟨.disconnect c.sharedKey, ?_, .inl (.inr rfl)⟩
      rw [List.eq_of_mem_replicate ho, hkey]
      rfl
  | sendGameData data reported =>
    obtain ⟨-, rfl⟩ := Outcome.leaves_some h
    obtain ⟨-, rfl⟩ := sendGameData_sends ho
    exact ⟨.data c.sharedKey (c.sequence + 1) data.bytes, rfl, .inr (by simp [Message.type])⟩
  | setActiveTimeout p_value => cases h; cases ho

theorem client_act_whole {action : ClientAction C} (h : c.act action = some (c', sent)) :
    Whole C sent := fun _ ho => by
  obtain ⟨m, hm, -⟩ := client_act_answers h ho
  exact ⟨m, hm⟩

/-- Everything on the network is a whole message. -/
structure Wholesome (sys : System C ι) : Prop where
  tables : Tables sys.server
  paired : Paired sys.server
  network : ∀ d ∈ sys.network, ∃ m : Message C, d.bytes = m.bytes

theorem Wholesome.start (C : Crypto) (ι : Type) : Wholesome (System.start C ι) where
  tables := .create C
  paired h := by simp [System.start, Server.create] at h
  network d hd := by cases hd

theorem append_whole {network : List Datagram} {a : Address}
    (h : ∀ d ∈ network, ∃ m : Message C, d.bytes = m.bytes) (hsent : Whole C sent) :
    ∀ d ∈ network ++ System.post a sent, ∃ m : Message C, d.bytes = m.bytes := by
  intro d hd
  rcases List.mem_append.mp hd with hd | hd
  · exact h d hd
  · obtain ⟨-, out, ho, he⟩ := mem_post hd
    rw [he]
    exact hsent out ho

theorem step_wholesome [DecidableEq ι] (h : Wholesome sys) {action : SystemAction C ι}
    (hstep : System.step hosts sys action = some sys') : Wholesome sys' := by
  cases step_moves hstep with
  | client ha hact hf =>
    exact ⟨h.tables, h.paired, append_whole h.network (client_act_whole hact)⟩
  | @server action t sent ha hact hf =>
    obtain ⟨hp, hsent⟩ := server_act_whole h.tables h.paired hact
    exact ⟨step_tables h.tables (by rw [← server_act_step, hact]; rfl), hp,
      append_whole h.network hsent⟩

theorem length_message (m : Message C) : 5 ≤ m.bytes.length := by
  cases m <;> simp only [Message.bytes, length_checked, length_sealed, length_dataMessage,
    length_header, acceptMessage] <;> omega

/-- A client withstands every whole message. -/
theorem withstands_message (c : Client C) (m : Message C) (hm : m.bytes.length ≤ receiveSize) :
    Withstands c m.bytes where
  header _ := .inr (.inl (length_message m))
  challenge _ ht := by
    obtain ⟨y, rfl⟩ := Message.eq_challenge (Message.type_of_crc ht (by simp))
    rw [Message.bytes, length_checked, Crypto.length_public_key, challengePacketSize,
      minimumHeaderSize]
  gameData _ ht := by
    have htype := Message.type_of_hmac ht (by simp)
    cases m with
    | data k sequence data =>
      rw [Message.bytes, gameDataSizeOf_message, length_sealed, length_dataMessage,
        connectionDataPacketSize, minimumHeaderSize, UInt32.toNat_ofNat']
      have := Nat.mod_le data.length (2 ^ 32)
      omega
    | request | challenge | response | accepted | disconnect => cases htype

theorem message_fits (s : Server C) {sender : Address} {m : Message C}
    (hm : m.bytes.length ≤ receiveSize)
    (ht : classify s sender m.bytes = .ok (some .connectionData)) : ¬ Wraps m.bytes := by
  have htype := Message.type_of_server ht (by simp)
  cases m with
  | data k sequence data =>
    rw [Message.bytes, length_sealed, length_dataMessage, receiveSize] at hm
    rw [Message.bytes, Wraps, gameDataSizeOf_message, UInt32.toNat_ofNat']
    omega
  | request | challenge | response | accepted | disconnect => cases htype

/-- As long as nobody forges and nothing is delivered to another address, every call to `Listen`
comes back, on the server and on every client, whatever is lost, late or doubled. -/
theorem honest_calls_return [DecidableEq ι] (hC : 5 + C.roundedPublicKeySize < 2 ^ 31)
    {actions : List (SystemAction C ι)}
    (hrun : Runs.run (System.step hosts) (System.start C ι) actions = some sys) :
    (∀ arrival seed p_size, System.Arrives sys.network hosts.server arrival →
        ∃ l, (sys.server.listen arrival seed p_size).result = .ok l) ∧
      ∀ i arrival p_size received now, System.Arrives sys.network (hosts.client i) arrival →
        ∃ l, ((sys.clients i).listen arrival p_size received now).result = .ok l := by
  have h : Wholesome sys :=
    Runs.invariant (fun _ _ _ h hs => step_wholesome h hs) (.start C ι) hrun
  constructor
  · intro arrival seed p_size ha
    have hno : ¬ Overruns sys.server arrival := by
      cases arrival with
      | none => exact id
      | some p =>
        rintro ⟨hd, -, ht, hw⟩
        obtain ⟨e, he, -, hbytes, -⟩ := ha
        obtain ⟨m, hm⟩ := h.network e he
        rw [← hbytes, hm] at hd ht hw
        exact message_fits sys.server hd ht hw
    have hl := server_listen_result hC sys.server arrival seed p_size
    rwa [if_neg hno] at hl
  · intro i arrival p_size received now ha
    rcases receive_cases arrival with hf | ⟨source, d, rfl, hd⟩
    · rw [client_listen_failed hf]
      exact ⟨_, checkTimeout_result _ now⟩
    · obtain ⟨e, he, -, rfl, -⟩ := ha
      obtain ⟨m, hm⟩ := h.network e he
      refine (received_returns_iff (sys.clients i) source p_size received now hd).mpr ?_
      rw [hm] at hd ⊢
      exact withstands_message (sys.clients i) m hd

theorem honest_calls_return_sample :
    ∃ sys, Runs.run (System.step sampleHosts) (System.start sample (Fin 2))
        (sampleJoins 0 0 1 1 ++ [.client 1 (.connect (2 : Fin 8))]) = some sys ∧
      (∀ arrival seed p_size, System.Arrives sys.network sampleHosts.server arrival →
        ∃ l, (sys.server.listen arrival seed p_size).result = .ok l) ∧
      ∀ i arrival p_size received now,
        System.Arrives sys.network (sampleHosts.client i) arrival →
        ∃ l, ((sys.clients i).listen arrival p_size received now).result = .ok l := by
  have hrun : (Runs.run (System.step sampleHosts) (System.start sample (Fin 2))
      (sampleJoins 0 0 1 1 ++ [.client 1 (.connect (2 : Fin 8))])).isSome = true := by
    decide +kernel
  obtain ⟨sys, hs⟩ := Option.isSome_iff_exists.mp hrun
  exact ⟨sys, hs, honest_calls_return (by decide) hs⟩

end

end GameNetwork.Proofs
