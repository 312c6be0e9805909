import GameNetwork.Proofs.Consistent
import GameNetwork.Proofs.GameData

namespace GameNetwork.Proofs

variable {C : Crypto} {ι : Type} {hosts : Hosts ι} {sys : System C ι} {i : ι} {c t : Client C}
  {sent : List Outgoing} {source : Address} {d : List UInt8} {x : C.Seed} {received now : Int}

/-- All that `Connect` can do: nothing, if there is a session; keep the new keys only, if the
packet cannot be written; or send its request. -/
inductive Connects (c : Client C) (x : C.Seed) : Client C → List Outgoing → Prop
  | again (hs : c.state ≠ .disconnected) : Connects c x c []
  | unwritten (hs : c.state = .disconnected) :
      Connects c x { c with privateKey := C.privateKey x, publicKey := C.publicKey x } []
  | requested (hs : c.state = .disconnected) (hC : 5 + C.roundedPublicKeySize < 2 ^ 31) :
      Connects c x (requesting c x)
        [⟨broadcastAddress, checked .connectionRequest (C.publicKey x).bytes⟩]

theorem connect_connects (c : Client C) (x : C.Seed) :
    Connects c x (c.connect x).self (c.connect x).sent := by
  by_cases hs : c.state = .disconnected
  · cases hw : written (ConnectionRequestPacket.write { clientPublicKey := C.publicKey x }) with
    | ok bytes =>
      rw [connect_disconnected (request_fits hw) hs]
      exact .requested hs (request_fits hw)
    | error e =>
      have hcall : c.connect x = Outcome.catchStd
          { self := { c with privateKey := C.privateKey x, publicKey := C.publicKey x }
            result := .error e } () := by
        rw [Client.connect, if_pos hs]
        simp only [hw]
      rw [hcall, Outcome.catchStd_self, Outcome.catchStd_sent]
      exact .unwritten hs
  · rw [Client.connect, if_neg hs, Outcome.catchStd_self, Outcome.catchStd_sent]
    exact .again hs

theorem Connects.of_act (h : c.act (.connect x) = some (t, sent)) : Connects c x t sent := by
  obtain ⟨rfl, rfl⟩ := Outcome.leaves_some h
  exact connect_connects c x

theorem connect_again (hs : c.state ≠ .disconnected) : (c.connect x).self = c := by
  have hconnects := connect_connects c x
  generalize (c.connect x).self = t at hconnects ⊢
  generalize (c.connect x).sent = sent at hconnects
  cases hconnects with
  | again => rfl
  | unwritten h | requested h => exact absurd h hs

theorem sendGameData_kin (c : Client C) (data : GameData) (reported : Bool) :
    Kin c (c.sendGameData data reported).self := by
  unfold Client.sendGameData
  split
  · dsimp only
    split <;> exact ⟨rfl, rfl, rfl, rfl⟩
  · exact ⟨rfl, rfl, rfl, rfl⟩

theorem sendGameData_harmless (c : Client C) (data : GameData) (reported : Bool) :
    Harmless C (c.sendGameData data reported).sent := by
  intro out ho
  obtain ⟨-, rfl⟩ := sendGameData_sends ho
  exact ⟨.data c.sharedKey (c.sequence + 1) data.bytes, rfl, .inr rfl⟩

theorem sendDisconnect_leaves (c : Client C) :
    c.sendDisconnect.self = c.disconnect ∧ ∀ out ∈ c.sendDisconnect.sent,
      out.bytes = (Message.disconnect c.sharedKey : Message C).bytes := by
  by_cases hs : c.state ≠ .disconnected ∧ c.state ≠ .sendingRequest
  · rw [sendDisconnect_active hs]
    constructor
    · rfl
    · intro out ho
      rw [List.eq_of_mem_replicate ho]
      rfl
  · rw [sendDisconnect_idle hs]
    constructor
    · rfl
    · intro out ho
      cases ho

section
variable [DecidableEq ι] (hC : Ideal C) (h : Consistent hosts sys)
include hC h

theorem Consistent.connect
    (hf : System.Fresh sys.network (some x) ((sys.clients i).connect x).sent) :
    Consistent hosts (sys.withClient hosts i ((sys.clients i).connect x).self
      ((sys.clients i).connect x).sent) := by
  have hconnects := connect_connects (sys.clients i) x
  generalize ((sys.clients i).connect x).self = t at hconnects ⊢
  generalize ((sys.clients i).connect x).sent = sent at hconnects hf ⊢
  cases hconnects with
  | again => exact h.kin ⟨rfl, rfl, rfl, rfl⟩ Harmless.nil
  | unwritten hs =>
    apply h.disconnected hC
    · exact hs
    · exact (h.clients i).idle hs
    · intro out ho
      cases ho
  | requested hs hR =>
    have hzero := (h.clients i).idle hs
    obtain ⟨hr, hc⟩ := fresh_unsent hR hf (.inl rfl)
    apply h.withClient
    · intro k hk hh
      exact absurd hh (not_holds_requesting hC hr hc hzero hk)
    · constructor
      · intro hs
        cases hs
      · intro _
        obtain ⟨d, hd, hsource, he⟩ := mem_append_post sys.network (hosts.client i)
          (List.mem_singleton.mpr rfl :
            (⟨broadcastAddress, (Message.request x).bytes⟩ : Outgoing) ∈ [_])
        exact ⟨x, rfl, d, hd, hsource, he⟩
      · intro hne
        exact absurd hzero hne
      · intro hs
        cases hs
    · exact h.apart.request hC hr hc broadcastAddress
    · intro out ho
      exact ⟨.request x, by rw [List.mem_singleton.mp ho]; rfl, trivial⟩

omit hC in
theorem Consistent.respond {o : Outcome (Client C) Unit} (ho : (sys.clients i).runThread = some o) :
    Consistent hosts (sys.withClient hosts i o.self o.sent) := by
  have hc := h.clients i
  have hharmless : Harmless C [⟨(sys.clients i).serverAddress,
      sealed C (sys.clients i).sharedKey (header .challengeResponse)⟩] := by
    intro out ho
    exact ⟨.response (sys.clients i).sharedKey, by rw [List.mem_singleton.mp ho]; rfl, .inl rfl⟩
  obtain ⟨n, -, rfl⟩ := runThread_some ho
  apply h.withClient
  · rintro k - ⟨hne, he | ⟨hs, -⟩⟩
    · exact ⟨hne, .inl he⟩
    · cases hs
  · constructor
    · intro hs
      cases hs
    · intro hs
      cases hs
    · exact (hc.mono (List.subset_append_left _ _)).sharedKey
    · intro hs
      cases hs
  · exact h.apart.keyless hharmless.keyless
  · exact hharmless.honest

theorem Consistent.reacts (hd : ∃ e ∈ sys.network, e.bytes = d)
    (hr : Reacts (sys.clients i) source d received t) :
    Consistent hosts (sys.withClient hosts i t []) := by
  have hc := h.clients i
  obtain ⟨e, he, rfl⟩ := hd
  obtain ⟨m, hm, -⟩ := h.honest e he
  cases hr with
  | unverified | ignored | data => exact h.kin ⟨rfl, rfl, rfl, rfl⟩ Harmless.nil
  | dropped =>
    apply h.disconnected hC rfl rfl
    intro out ho
    cases ho
  | challenge ht hs =>
    rw [hm] at ht
    obtain ⟨y, rfl⟩ := Message.eq_challenge (Message.type_of_client ht (by simp))
    have hkey : keyOf e.bytes = C.publicKey y := by rw [hm]; exact keyOf_checked _ _
    rw [hkey]
    obtain ⟨x, hp, hx⟩ := hc.requesting hs
    apply h.receives
    · -- a challenge only turns a key the client could get into one it has
      rintro k - ⟨hne, hk | ⟨-, hk⟩⟩
      · exact ⟨hne, .inr ⟨hs, y, hk.symm⟩⟩
      · exact ⟨hne, .inr ⟨hs, hk⟩⟩
    · constructor
      · intro hs'
        cases hs.symm.trans hs'
      · intro _
        exact ⟨x, hp, hx⟩
      · intro _
        exact ⟨x, y, hp, hx, ⟨e, he, hm⟩, by rw [← hp]; rfl⟩
      · intro hs'
        cases hs.symm.trans hs'
  | accepted ht hs =>
    have hkt : clientType (sys.clients i) e.bytes =
        .ok (hmacType C (sys.clients i).sharedKey e.bytes) := by
      rw [clientType, if_neg (by simp [hs])]
    rw [hkt, hm] at ht
    have ht := Except.ok.inj ht
    obtain ⟨k, j, rfl⟩ := Message.eq_accepted (Message.type_of_hmac ht (by simp))
    obtain rfl := hC.sealed_key ht (by simp)
    have hj : j.val < 4 := j.isLt
    have hid : (clientIdOf e.bytes).toNat = j.val := by rw [hm]; exact clientIdOf_sealed _ j
    have hindex : ((touched (sys.clients i) source received).handlePacketConnectionAccepted
        ⟨clientIdOf e.bytes⟩).index = j.val := by
      rw [Client.handlePacketConnectionAccepted, hid, int32_eq] <;> omega
    apply h.receives
    · rintro k - ⟨hne, hk | ⟨hs', -⟩⟩
      · exact ⟨hne, .inl hk⟩
      · cases hs'
    · constructor
      · intro hs'
        cases hs'
      · intro hs'
        cases hs'
      · exact hc.sharedKey
      · intro _
        exact ⟨j, hindex, e, he, hm⟩

omit h hC in
theorem withClient_withClient :
    (sys.withClient hosts i t []).withClient hosts i c sent = sys.withClient hosts i c sent := by
  simp [System.withClient, System.post]

theorem Consistent.ends (hi : sys.clients i = t) (he : Ends t now c sent) :
    Consistent hosts (sys.withClient hosts i c sent) := by
  subst hi
  cases he with
  | stays => exact h.kin ⟨rfl, rfl, rfl, rfl⟩ Harmless.nil
  | times_out =>
    apply h.disconnected hC rfl rfl
    intro out ho
    rw [List.eq_of_mem_replicate ho]
    rfl

theorem Consistent.clientListen {arrival : Arrival}
    (ha : System.Arrives sys.network (hosts.client i) arrival) (p_size : UInt32)
    (received now : Int) :
    Consistent hosts (sys.withClient hosts i
      ((sys.clients i).listen arrival p_size received now).self
      ((sys.clients i).listen arrival p_size received now).sent) := by
  obtain ⟨t, hn, he⟩ := client_listen_noticed (sys.clients i) arrival p_size received now
  have hmid : Consistent hosts (sys.withClient hosts i t []) := by
    cases hn with
    | failed => exact h.kin ⟨rfl, rfl, rfl, rfl⟩ Harmless.nil
    | reacted _ hr =>
      obtain ⟨e, hmem, -, hbytes, -⟩ := ha
      exact h.reacts hC ⟨e, hmem, hbytes⟩ hr
  have hend := hmid.ends hC (i := i) (by simp [System.withClient]) he
  rwa [withClient_withClient] at hend

theorem Consistent.client {action : ClientAction C}
    (ha : System.Arrives sys.network (hosts.client i) action.arrival)
    (hact : (sys.clients i).act action = some (c, sent))
    (hf : System.Fresh sys.network action.seed sent) :
    Consistent hosts (sys.withClient hosts i c sent) := by
  cases action with
  | connect x =>
    obtain ⟨rfl, rfl⟩ := Outcome.leaves_some hact
    exact h.connect hC hf
  | respondChallenge =>
    obtain ⟨o, ho, hl⟩ := Option.bind_eq_some_iff.mp hact
    obtain ⟨rfl, rfl⟩ := Outcome.leaves_some hl
    exact h.respond ho
  | sendDisconnect =>
    obtain ⟨rfl, rfl⟩ := Outcome.leaves_some hact
    obtain ⟨hself, hsent⟩ := sendDisconnect_leaves (sys.clients i)
    exact h.disconnected hC (by rw [hself]; rfl) (by rw [hself]; rfl) hsent
  | listen arrival p_size received now =>
    obtain ⟨rfl, rfl⟩ := Outcome.leaves_some hact
    exact h.clientListen hC ha p_size received now
  | sendGameData data reported =>
    obtain ⟨rfl, rfl⟩ := Outcome.leaves_some hact
    exact h.kin (sendGameData_kin _ data reported) (sendGameData_harmless _ data reported)
  | setActiveTimeout p_value =>
    cases hact
    exact h.kin ⟨rfl, rfl, rfl, rfl⟩ Harmless.nil

end

end GameNetwork.Proofs
