import GameNetwork.Proofs.GameData
import GameNetwork.Proofs.Sessions

namespace GameNetwork.Proofs

variable {C : Crypto} {s : Server C} {c : Client C} {a serverAddress : Address} {x y z : C.Seed}
  {i : Slot}

/-- The one datagram a call sent, if it is for the address. -/
def delivered {σ α : Type} (o : Outcome σ α) (a : Address) : Option (List UInt8) :=
  match o.sent with
  | [out] => if out.destination = a then some out.bytes else none
  | _ => none

/-- The clock readings and buffer sizes of the calls in a handshake. -/
structure HandshakeCalls where
  challengeSize : UInt32
  challengeReceived : Int
  challengeNow : Int
  acceptedSize : UInt32
  acceptedReceived : Int
  acceptedNow : Int
  requestSize : UInt32
  responseSize : UInt32

/-- The calls of a handshake in their order, every datagram delivered as it was sent. -/
def handshake (s : Server C) (c : Client C) (serverAddress a : Address) (x y z : C.Seed)
    (calls : HandshakeCalls) : Option (Server C × Client C) := do
  let connecting := c.connect x
  let request ← delivered connecting broadcastAddress
  let challenging := s.listen (some (a, request)) y calls.requestSize
  let challenge ← delivered challenging a
  let challenged := connecting.self.listen (some (serverAddress, challenge)) calls.challengeSize
    calls.challengeReceived calls.challengeNow
  let responding ← challenged.self.runThread
  let response ← delivered responding serverAddress
  let accepting := challenging.self.listen (some (a, response)) z calls.responseSize
  let accept ← delivered accepting a
  let accepted := responding.self.listen (some (serverAddress, accept)) calls.acceptedSize
    calls.acceptedReceived calls.acceptedNow
  return (accepting.self, accepted.self)

/-- The client with a new key pair, waiting for a challenge. -/
def requesting (c : Client C) (x : C.Seed) : Client C :=
  { c with
    privateKey := C.privateKey x
    publicKey := C.publicKey x
    state := .sendingRequest }

theorem connect_disconnected (hC : 5 + C.roundedPublicKeySize < 2 ^ 31)
    (hc : c.state = .disconnected) (x : C.Seed) :
    c.connect x =
      { self := requesting c x
        sent := [⟨broadcastAddress, checked .connectionRequest (C.publicKey x).bytes⟩]
        result := .ok () } := by
  rw [Client.connect, if_pos hc]
  simp only [written_connectionRequest hC]
  rfl

/-- A challenge that is awaited gives the client the session key. -/
theorem client_handles_challenge {d : List UInt8} (hd : d.length ≤ receiveSize)
    (hc : c.state = .sendingRequest) (ht : clientType c d = .ok .challenge)
    (hk : 5 + C.roundedPublicKeySize ≤ d.length) (source : Address) (p_size : UInt32)
    (received now : Int) :
    (c.listen (some (source, d)) p_size received now).self =
      (touched c source received).handlePacketChallenge ⟨keyOf d⟩ := by
  obtain ⟨b, hl, hb⟩ := client_listen_received c source p_size received now hd
  obtain ⟨b', hr⟩ := challenge_read (C := C) (hb _ ht (by simp)) hk
  have hst : (touched c source received).state = .sendingRequest := hc
  have hst' : ((touched c source received).handlePacketChallenge ⟨keyOf d⟩).state ≠
      .connected := by
    rw [show ((touched c source received).handlePacketChallenge ⟨keyOf d⟩).state = c.state from rfl,
      hc]
    simp
  rw [hl, ht]
  simp only [ne_eq, reduceCtorEq, not_false_eq_true, if_true, Client.dispatch, hst, hr, concluded,
    checkTimeout_idle hst']

theorem client_listen_challenge (hfit : 5 + C.roundedPublicKeySize ≤ receiveSize)
    (hc : c.state = .sendingRequest) (source : Address) (key : C.PublicKey) (p_size : UInt32)
    (received now : Int) :
    (c.listen (some (source, checked .challenge key.bytes)) p_size received now).self =
      (touched c source received).handlePacketChallenge ⟨key⟩ := by
  have hlen : (checked .challenge key.bytes).length = 5 + C.roundedPublicKeySize := by
    rw [length_checked, Crypto.length_public_key]
  have ht : clientType c (checked .challenge key.bytes) = .ok .challenge := by
    rw [clientType, if_pos (.inr hc), crcType_checked]
    rfl
  rw [client_handles_challenge (by omega) hc ht (by omega), keyOf_checked]

theorem clientIdOf_sealed (k : ShortSharedKey) (j : Slot) :
    (clientIdOf (sealed C k (acceptMessage j))).toNat = j.val := by
  have hj : j.val < 4 := j.isLt
  have hbody : (sealed C k (acceptMessage j)).drop 5 =
      Bytes.be 4 j.val ++ (C.hmacSha256 k (acceptMessage j)).bytes := by
    rw [sealed, acceptMessage, header]
    simp [List.drop_append]
  rw [clientIdOf, hbody, List.take_left' (Bytes.length_be _ _), Bytes.ofBe_be, UInt32.toNat_ofNat']
  omega

/-- An accept that is awaited connects the client, unless it times out in the same call. -/
theorem client_listen_accept (hc : c.state = .sendingChallengeResponse) (source : Address)
    (j : Slot) (p_size : UInt32) (received now : Int)
    (hclock : c.activeTimeout = true → now - received ≤ timeoutTime) :
    (c.listen (some (source, sealed C c.sharedKey (acceptMessage j))) p_size received now).self =
      { touched c source received with index := j.val, state := .connected } := by
  have hlen : (sealed C c.sharedKey (acceptMessage j)).length = 41 := by
    rw [length_sealed, acceptMessage]
    simp
  have ht : clientType c (sealed C c.sharedKey (acceptMessage j)) = .ok .connectionAccepted := by
    rw [clientType, if_neg (by simp [hc]), acceptMessage, hmacType_sealed]
    rfl
  obtain ⟨b, hl, hb⟩ := client_listen_received (d := sealed C c.sharedKey (acceptMessage j)) c
    source p_size received now (by rw [hlen, receiveSize]; omega)
  obtain ⟨b', hr⟩ := accepted_read (hb _ ht (by simp)) (by omega)
  have hst : (touched c source received).state = .sendingChallengeResponse := hc
  have hj : j.val < 4 := j.isLt
  have hidx : int32 ((clientIdOf (sealed C c.sharedKey (acceptMessage j))).toNat : Int) = j.val := by
    rw [clientIdOf_sealed, int32_eq] <;> omega
  rw [hl, ht]
  simp only [ne_eq, reduceCtorEq, not_false_eq_true, if_true, Client.dispatch, hst, hr, concluded,
    Client.handlePacketConnectionAccepted, hidx]
  rw [Client.checkTimeout, if_neg]
  rintro ⟨ha, -, hn⟩
  have := hclock ha
  change now - received > timeoutTime at hn
  omega

theorem delivered_single {σ α : Type} (self : σ) (a : Address) (d : List UInt8)
    (result : Except Fault α) : delivered ⟨self, [⟨a, d⟩], result⟩ a = some d := if_pos rfl

theorem withChallenge_index (hT : Tables s) (challenge : ChallengeInfo C)
    (ha : challenge.clientAddress = a) :
    (withChallenge s challenge).findExistingChallengeIndex a = 1 := by
  rcases (withChallenge_tables hT challenge).challenge_cases a with ⟨h, -⟩ | ⟨-, h⟩
  · exact h
  · exact absurd ⟨by simp, by simpa using ha⟩ h

/-- The response to the challenge in the slot reaches its handler. -/
theorem response_classified (hT : Tables s) (challenge : ChallengeInfo C)
    (hn : ¬ s.findExistingConnectionIndex a > 0) (ha : challenge.clientAddress = a) :
    classify (withChallenge s challenge) a
        (sealed C challenge.resolved.sharedKey (header .challengeResponse)) =
      .ok (some .challengeResponse) := by
  have hn' : ¬ (withChallenge s challenge).findExistingConnectionIndex a > 0 := hn
  have hs := hmacType_sealed (C := C) (k := challenge.resolved.sharedKey) .challengeResponse []
  rw [List.append_nil] at hs
  rw [classify_challenged hn' (withChallenge_index hT challenge ha), withChallenge_challenges_one,
    hs]
  rfl

/-- The server accepts the response to the challenge it has just sent. -/
theorem listen_response (hT : Tables s) (hl : s.state = .lobby) (challenge : ChallengeInfo C)
    {j : Slot} (hn : ¬ s.findExistingConnectionIndex a > 0) (ha : challenge.clientAddress = a)
    (hj : s.findFreeConnectionIndex = j.val) (z : C.Seed) (p_size : UInt32) :
    (withChallenge s challenge).listen (some (a, sealed C challenge.resolved.sharedKey
        (header .challengeResponse))) z p_size =
      { self := accepted (withChallenge s challenge) j
        sent := [⟨a, sealed C challenge.resolved.sharedKey (acceptMessage j)⟩]
        result := .ok { ret := 0 } } := by
  have hlen : (sealed C challenge.resolved.sharedKey (header .challengeResponse)).length = 37 := by
    rw [length_sealed, length_header]
  rw [listen_accept (withChallenge_tables hT challenge) (by rw [hlen, receiveSize]; omega)
    (response_classified hT challenge hn ha) hl (withChallenge_index hT challenge ha) hj]
  simp

/-- What a handshake of the client at an address leaves on both sides. -/
structure Established (s s' : Server C) (c' : Client C) (a : Address) (i : Slot) : Prop where
  state : c'.state = .connected
  index : c'.index = i.val
  past_own : i ≠ 0
  was_free : s.connected i = false
  connected : s'.connected i = true
  address : (s'.connections i).clientAddress = a
  sequence : (s'.connections i).sequence = 0
  sharedKey : (s'.connections i).sharedKey = c'.sharedKey
  challenge_gone : s'.findExistingChallengeIndex a < 0
  count : s'.getConnectedClientCount = s.getConnectedClientCount + 1
  others : ∀ j, j ≠ i → s'.connected j = s.connected j ∧ s'.connections j = s.connections j

theorem accepted_established (hT : Tables s) {challenge : ChallengeInfo C} {i : Slot}
    {c' : Client C} (ha : challenge.clientAddress = a) (hi : s.findFreeConnectionIndex = i.val)
    (hs : c'.state = .connected) (hidx : c'.index = i.val)
    (hk : challenge.resolved.sharedKey = c'.sharedKey) :
    Established s (accepted (withChallenge s challenge) i) c' a i where
  state := hs
  index := hidx
  past_own := hT.free_ne_zero hi
  was_free := by simpa using FirstIndex.passes hi
  connected := by simp [accepted]
  address := by simpa [accepted] using ha
  sequence := by simp [accepted]
  sharedKey := by simpa [accepted] using hk
  challenge_gone := by
    have hT' := accepted_tables (withChallenge_tables hT challenge) (j := i) hi
    rcases hT'.challenge_cases a with ⟨-, h, -⟩ | ⟨h, -⟩
    · simp [accepted, dropChallenge] at h
    · exact h
  count := rfl
  others j hj := by simp [accepted, hj]

/-- The client once it has answered the challenge for a server's key. -/
def answered (c : Client C) (serverAddress : Address) (x y : C.Seed) (received : Int) : Client C :=
  { requesting c x with
    sharedKey := C.sessionKey (C.publicKey y) (C.privateKey x)
    serverAddress := serverAddress
    lastReceivedPacket := received
    state := .sendingChallengeResponse }

/-- The thread the challenge started sends the response. -/
theorem runThread_challenged (c : Client C) (serverAddress : Address) (x y : C.Seed)
    (received : Int) :
    ((touched (requesting c x) serverAddress received).handlePacketChallenge
        ⟨C.publicKey y⟩).runThread =
      some
        { self := answered c serverAddress x y received
          sent := [⟨serverAddress, sealed C (C.sessionKey (C.publicKey y) (C.privateKey x))
            (header .challengeResponse)⟩]
          result := .ok () } :=
  congrArg some (respondChallenge_eq _)

/-- Both sides of a challenge compute one key. -/
theorem challenge_key (hcomm : C.Commutes) (a : Address) (x y : C.Seed) :
    (newChallenge a (C.publicKey x) y).resolved.sharedKey =
      C.sessionKey (C.publicKey y) (C.privateKey x) := by
  rw [← hcomm.sessionKey]
  rfl

section
variable {calls : HandshakeCalls} (hT : Tables s) (hl : s.state = .lobby)
include hT hl

/-- A handshake up to the response leaves the server with the challenge and the client with its
key. What becomes of the response decides the rest. -/
theorem handshake_eq (hfit : 5 + C.roundedPublicKeySize ≤ receiveSize)
    (hc : c.state = .disconnected) (hconn : s.findExistingConnectionIndex a < 0)
    (hchall : s.findExistingChallengeIndex a < 0) :
    handshake s c serverAddress a x y z calls =
      let responding := answered c serverAddress x y calls.challengeReceived
      let accepting := (withChallenge s (newChallenge a (C.publicKey x) y)).listen
        (some (a, sealed C responding.sharedKey (header .challengeResponse))) z calls.responseSize
      (delivered accepting a).map fun accept =>
        (accepting.self, (responding.listen (some (serverAddress, accept)) calls.acceptedSize
          calls.acceptedReceived calls.acceptedNow).self) := by
  have hC : 5 + C.roundedPublicKeySize < 2 ^ 31 := by rw [receiveSize] at hfit; omega
  have hlen : (checked .connectionRequest (C.publicKey x).bytes).length =
      5 + C.roundedPublicKeySize := by rw [length_checked, Crypto.length_public_key]
  have hcl : classify s a (checked .connectionRequest (C.publicKey x).bytes) =
      .ok (some .connectionRequest) := by
    rw [classify, if_neg (by omega), if_pos hchall, crcType_checked]
    rfl
  have hrequest : s.listen (some (a, checked .connectionRequest (C.publicKey x).bytes)) y
      calls.requestSize = _ := listen_challenge hT (by omega) hcl hl (by omega) hchall
  rw [keyOf_checked] at hrequest
  have hchallenge := client_listen_challenge hfit (c := requesting c x) rfl serverAddress
    (C.publicKey y) calls.challengeSize calls.challengeReceived calls.challengeNow
  unfold handshake
  simp only [connect_disconnected hC hc x, delivered_single, hrequest, Option.bind_eq_bind,
    Option.bind_some, hchallenge, runThread_challenged]
  exact Option.map_eq_bind.symm

/-- With a slot free the server accepts the response, and the client the slot. -/
theorem handshake_accepts (hcomm : C.Commutes) (hfit : 5 + C.roundedPublicKeySize ≤ receiveSize)
    (hc : c.state = .disconnected) (hconn : s.findExistingConnectionIndex a < 0)
    (hchall : s.findExistingChallengeIndex a < 0)
    (hclock : c.activeTimeout = true → calls.acceptedNow - calls.acceptedReceived ≤ timeoutTime)
    (hi : s.findFreeConnectionIndex = i.val) :
    ∃ c', handshake s c serverAddress a x y z calls =
        some (accepted (withChallenge s (newChallenge a (C.publicKey x) y)) i, c') ∧
      Established s (accepted (withChallenge s (newChallenge a (C.publicKey x) y)) i) c' a i := by
  have hkey := challenge_key hcomm a x y
  have hresponse := listen_response hT hl (newChallenge a (C.publicKey x) y) (a := a) (by omega) rfl
    hi z calls.responseSize
  have haccept := client_listen_accept
    (c := answered c serverAddress x y calls.challengeReceived) rfl serverAddress i
    calls.acceptedSize calls.acceptedReceived calls.acceptedNow hclock
  rw [hkey] at hresponse
  refine ⟨{ touched (answered c serverAddress x y calls.challengeReceived) serverAddress
      calls.acceptedReceived with index := i.val, state := .connected }, ?_,
    accepted_established hT rfl hi rfl rfl hkey⟩
  rw [handshake_eq hT hl hfit hc hconn hchall]
  dsimp only [answered] at haccept ⊢
  rw [hresponse, delivered_single, Option.map_some]
  exact congrArg (fun c => some (_, c)) haccept

end

/-- Delivered in order, the packets of a handshake connect a client that is in neither table
to a free slot of a lobby server, with one key on both sides. -/
theorem handshake_completes (hcomm : C.Commutes) (hfit : 5 + C.roundedPublicKeySize ≤ receiveSize)
    (hs : Reachable s) (hl : s.state = .lobby) (hfree : ∃ j, s.connected j = false)
    (hc : c.state = .disconnected) (hconn : s.findExistingConnectionIndex a < 0)
    (hchall : s.findExistingChallengeIndex a < 0) (serverAddress : Address) (x y z : C.Seed)
    (calls : HandshakeCalls)
    (hclock : c.activeTimeout = true → calls.acceptedNow - calls.acceptedReceived ≤ timeoutTime) :
    ∃ s' c' i, handshake s c serverAddress a x y z calls = some (s', c') ∧
      Established s s' c' a i := by
  obtain ⟨i, hi, -⟩ := free_slot (s := s) (by
    obtain ⟨j, hj⟩ := hfree
    exact FirstIndex.nonneg_iff.mpr ⟨j, by simp [hj]⟩)
  obtain ⟨c', hrun, he⟩ := handshake_accepts hs.tables hl hcomm hfit hc hconn hchall hclock hi
  exact ⟨_, c', i, hrun, he⟩

theorem first_handshake :
    ∃ s' c' i, handshake (Server.create sample) ({} : Client sample) (sampleAddress 9)
        (sampleAddress 1) (0 : Fin 8) (1 : Fin 8) (2 : Fin 8) ⟨0, 0, 0, 0, 0, 0, 0, 0⟩ =
        some (s', c') ∧
      Established (Server.create sample) s' c' (sampleAddress 1) i :=
  handshake_completes sample_ideal.commutes (by decide) ⟨[], rfl⟩ rfl ⟨1, by decide⟩ rfl
    (by decide +kernel) (by decide +kernel) (sampleAddress 9) (0 : Fin 8) (1 : Fin 8) (2 : Fin 8)
    ⟨0, 0, 0, 0, 0, 0, 0, 0⟩ (fun h => by cases h)

end GameNetwork.Proofs
