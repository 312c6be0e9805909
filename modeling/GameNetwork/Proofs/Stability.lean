import GameNetwork.Proofs.Handshake
import GameNetwork.Proofs.Propagate
import GameNetwork.Proofs.Reported
import GameNetwork.Proofs.RoundTrip

namespace GameNetwork.Proofs

variable {C : Crypto} {s t u : Server C} {i : Slot} {m n : Nat} {action : ServerAction C}
  {actions : List (ServerAction C)} {arrival : Arrival} {seed : C.Seed} {p_size : UInt32}
  {sent : List Outgoing} {out : Outgoing}

/-- The payload fits a packet. -/
def PayloadFits : ServerAction C → Prop
  | .propagateGameData data => 43 + data.bytes.length < 2 ^ 31
  | _ => True

instance : (action : ServerAction C) → Decidable (PayloadFits action)
  | .propagateGameData _ => inferInstanceAs (Decidable (_ < _))
  | .listen .. | .switchToLobby | .switchToGame => .isTrue trivial

def isPropagate : ServerAction C → Bool
  | .propagateGameData _ => true
  | _ => false

/-- The session of a slot in one state is that of the other, `n` packets later. -/
structure Continues (s t : Server C) (i : Slot) (n : Nat) : Prop where
  address : (t.connections i).clientAddress = (s.connections i).clientAddress
  sharedKey : (t.connections i).sharedKey = (s.connections i).sharedKey
  sequence : (t.connections i).sequence = (s.connections i).sequence + UInt16.ofNat n

theorem Continues.of_eq (h : t.connections i = s.connections i) : Continues s t i 0 := by
  constructor
  · rw [h]
  · rw [h]
  · simp [h]

theorem Continues.trans (h : Continues s t i m) (h' : Continues t u i n) :
    Continues s u i (m + n) where
  address := h'.address.trans h.address
  sharedKey := h'.sharedKey.trans h.sharedKey
  sequence := by rw [h'.sequence, h.sequence, UInt16.ofNat_add, UInt16.add_assoc]

/-- `Listen` keeps its hands off a slot that is connected before and after. -/
theorem Heard.keeps_slot (h : Heard s seed arrival t sent) (hs : s.connected i = true)
    (ht : t.connected i = true) : t.connections i = s.connections i := by
  cases h with
  | quiet hf => rw [hf.alike.connections]
  | challenge | rechallenge | withdraw => rfl
  | @accept _ _ j _ _ _ _ hj =>
    have hne : i ≠ j := by
      rintro rfl
      have hfree := FirstIndex.passes hj
      rw [hs] at hfree
      cases hfree
    simp [accepted, hne]
  | disconnect =>
    have hne : i ≠ 1 := by
      rintro rfl
      simp [dropConnection] at ht
    simp [dropConnection, hne]

/-- A slot that `Listen` connects begins to count at 0. -/
theorem Heard.joins_at_zero (h : Heard s seed arrival t sent) (hs : s.connected i = false)
    (ht : t.connected i = true) : (t.connections i).sequence = 0 := by
  have hkept (he : t.connected i = s.connected i) : (t.connections i).sequence = 0 := by
    rw [he, hs] at ht
    cases ht
  cases h with
  | quiet hf => exact hkept (by rw [hf.alike.connected])
  | challenge | rechallenge | withdraw => exact hkept rfl
  | @accept _ _ j =>
    by_cases hij : i = j
    · simp [accepted, hij]
    · exact hkept (by simp [accepted, hij])
  | disconnect =>
    by_cases h1 : i = 1
    · simp [dropConnection, h1]
    · exact hkept (by simp [dropConnection, h1])

theorem step_continues (hT : Tables s) (hi : i ≠ 0) (hf : PayloadFits action)
    (hs : s.connected i = true) (h : s.step action = some t) (ht : t.connected i = true) :
    Continues s t i (if isPropagate action then 1 else 0) := by
  cases action with
  | listen arrival seed p_size =>
    obtain rfl := Outcome.next_some h
    exact .of_eq ((listen_heard hT arrival seed p_size).keeps_slot hs ht)
  | propagateGameData data =>
    obtain rfl := Outcome.next_some h
    have hc := propagateSlots_counted data [1, 2, 3] s
    have hmem : ∀ j : Slot, j ≠ 0 → j ∈ ([1, 2, 3] : List Slot) := by decide
    have hseq := propagateSlots_sequence data hf [1, 2, 3] (by decide) s hs
    rw [if_pos (hmem i hi)] at hseq
    exact ⟨hc.address i, hc.sharedKey i, hseq⟩
  | switchToLobby => cases h; exact .of_eq rfl
  | switchToGame => cases h; exact .of_eq rfl

/-- While a slot stays connected, its session continues, and only `PropagateGameData` counts. -/
theorem run_continues (hT : Tables s) (hi : i ≠ 0) (hf : ∀ action ∈ actions, PayloadFits action)
    (hc : Runs.Throughout Server.step (fun v => v.connected i = true) s actions)
    (h : Runs.run Server.step s actions = some u) :
    Continues s u i (actions.countP isPropagate) := by
  induction actions generalizing s with
  | nil => cases h; exact .of_eq rfl
  | cons action actions ih =>
    obtain ⟨t, hst, htu⟩ := Runs.run_cons_some h
    obtain ⟨hs, hrest⟩ := Runs.throughout_cons.mp hc
    have hct := hrest t hst
    have ht : t.connected i = true := hct [] t List.nil_prefix rfl
    have hstep := step_continues hT hi (hf action List.mem_cons_self) hs hst ht
    have hrun := ih (step_tables hT hst)
      (fun a ha => hf a (List.mem_cons_of_mem action ha)) hct htu
    rw [List.countP_cons, Nat.add_comm]
    exact hstep.trans hrun

theorem step_joins_at_zero (hT : Tables s) (hs : s.connected i = false)
    (h : s.step action = some t) (ht : t.connected i = true) :
    (t.connections i).sequence = 0 := by
  have hno (he : t.connected = s.connected) : (t.connections i).sequence = 0 := by
    rw [he, hs] at ht
    cases ht
  cases step_stepped hT h with
  | listen h => exact h.joins_at_zero hs ht
  | propagate h => exact hno h.connected
  | lobby | game => exact hno rfl

theorem propagateSlots_returns (data : GameData) (hu : 43 + data.bytes.length < 2 ^ 31)
    (is : List Slot) (s : Server C) : (Server.propagateSlots data is s).result = .ok () := by
  induction is generalizing s with
  | nil => rfl
  | cons j is ih =>
    rw [Server.propagateSlots]
    split
    · simp only [written_connectionData C _ _ hu]
      exact ih _
    · exact ih s

/-- The call sends one datagram to every connected slot past 0. That of slot `i` goes to the
address, verifies under the key and carries the number and the payload. -/
def Propagates (s : Server C) (data : GameData) (i : Slot) (a : Address) (k : ShortSharedKey)
    (n : Nat) : Prop :=
  (s.propagateGameData data).result = .ok () ∧ ∃ datagram : Slot → Outgoing,
    (s.propagateGameData data).sent =
        (([1, 2, 3] : List Slot).filter fun j => s.connected j).map datagram ∧
      (datagram i).destination = a ∧
      Received C k .connectionData (datagram i).bytes ConnectionDataPacket.read
        ⟨UInt16.ofNat n, UInt32.ofNat data.bytes.length, data.bytes⟩

theorem Continues.propagates (h : Continues t u i n) (hz : (t.connections i).sequence = 0)
    (data : GameData) (hu : 43 + data.bytes.length < 2 ^ 31) :
    Propagates u data i (t.connections i).clientAddress (t.connections i).sharedKey (n + 1) := by
  have hnext : (u.connections i).sequence + 1 = UInt16.ofNat (n + 1) := by
    rw [h.sequence, hz, UInt16.zero_add, UInt16.ofNat_add]
    rfl
  refine ⟨propagateSlots_returns data hu _ u, slotDatagram u data,
    propagateSlots_sent data hu _ (by decide) u, h.address, ?_⟩
  rw [slotDatagram, h.sharedKey, hnext]
  exact received_data C _ _ hu

/-- The datagram is no `CONNECTION_ACCEPTED` of slot 0. -/
def NotOwnAccept (out : Outgoing) : Prop :=
  out.bytes.getD 4 0 = PacketType.connectionAccepted.toByte → clientIdOf out.bytes ≠ 0

theorem Heard.not_own_accept (h : Heard s seed arrival t sent) (hT : Tables s)
    (ho : out ∈ sent) : NotOwnAccept out := by
  cases h with
  | quiet | disconnect | withdraw => cases ho
  | challenge | rechallenge =>
    obtain rfl := List.mem_singleton.mp ho
    intro hb
    rw [getD_checked] at hb
    cases hb
  | @accept _ _ j _ _ _ _ hj =>
    obtain rfl := List.mem_singleton.mp ho
    intro _ hid
    have hval := clientIdOf_sealed (C := C) (s.challenges 1).resolved.sharedKey j
    rw [hid] at hval
    exact hT.free_ne_zero hj (Fin.ext hval.symm)

theorem propagate_not_own_accept {data : GameData} (ho : out ∈ (s.propagateGameData data).sent) :
    NotOwnAccept out := by
  obtain ⟨j, -, sequence, -, rfl⟩ := propagateSlots_mem data ho
  intro hb
  rw [dataMessage, getD_sealed_header] at hb
  cases hb

/-- In every reachable server slot 0 stays the server's own, and is named in no accept and in
no game data. A slot that becomes connected keeps its address and key as long as it stays so,
and each `PropagateGameData` sends it the next number. -/
theorem sessions_stable (hs : Reachable s) :
    (s.connected 0 = true ∧ (s.connections 0).clientAddress = ownAddress) ∧
      ((∀ arrival seed p_size, ∀ out ∈ (s.listen arrival seed p_size).sent, NotOwnAccept out) ∧
        ∀ data, ∀ out ∈ (s.propagateGameData data).sent, NotOwnAccept out) ∧
      (∀ arrival seed p_size l g, (s.listen arrival seed p_size).result = .ok l →
        l.gameData = some g → g.take 4 ≠ nativeInt 0) ∧
      ∀ (i : Slot) (action : ServerAction C) (t : Server C), i ≠ 0 → s.connected i = false →
        s.step action = some t → t.connected i = true →
        ∀ (actions : List (ServerAction C)) (u : Server C), (∀ action ∈ actions, PayloadFits action) →
          Runs.Throughout Server.step (fun v => v.connected i = true) t actions →
          Runs.run Server.step t actions = some u →
          (u.connections i).clientAddress = (t.connections i).clientAddress ∧
            (u.connections i).sharedKey = (t.connections i).sharedKey ∧
            ∀ data : GameData, 43 + data.bytes.length < 2 ^ 31 →
              Propagates u data i (t.connections i).clientAddress (t.connections i).sharedKey
                (actions.countP isPropagate + 1) := by
  have hT := hs.tables
  refine ⟨⟨hT.own_connected, hT.own_address⟩, ⟨?_, ?_⟩, ?_, ?_⟩
  · intro arrival seed p_size out ho
    exact (listen_heard hT arrival seed p_size).not_own_accept hT ho
  · intro data out ho
    exact propagate_not_own_accept ho
  · intro arrival seed p_size l g h hg
    obtain ⟨sender, d, data, -, htakes, -, rfl⟩ := server_listen_reports h hg
    obtain ⟨i, hi, hne, -, -⟩ := connection_found htakes.index
    rw [List.take_left' (length_nativeInt _), hi]
    exact fun hz => hne (nativeInt_slot i 0 hz)
  · intro i action t hi hfree hstep hin actions u hfits hstays hrun
    have hc := run_continues (step_tables hT hstep) hi hfits hstays hrun
    exact ⟨hc.address, hc.sharedKey, hc.propagates (step_joins_at_zero hT hfree hstep hin)⟩

/-- A client joins, and the second payload of its session is the packet with number 2. -/
theorem sessions_stable_sample :
    ∃ t u : Server sample,
      Runs.run Server.step (Server.create sample) (sampleJoin (sampleAddress 1) 0 1) = some t ∧
      Runs.run Server.step t [.switchToGame, .propagateGameData ⟨[7], by decide⟩] = some u ∧
      Propagates u ⟨[8, 9], by decide⟩ 1 (t.connections 1).clientAddress
        (t.connections 1).sharedKey 2 := by
  have hflags : ((Runs.run Server.step (Server.create sample)
      [sampleRequest (sampleAddress 1) 0 1]).bind fun s =>
        (s.step (sampleHears (sampleAddress 1)
          (sealed sample (sampleSession 0 1) (header .challengeResponse)) 1)).bind fun t =>
            (Runs.run Server.step t [.switchToGame, .propagateGameData ⟨[7], by decide⟩]).map
              fun _ => (s.connected 1, t.connected 1)) = some (false, true) := by decide +kernel
  obtain ⟨s, hs, hflags⟩ := Option.bind_eq_some_iff.mp hflags
  obtain ⟨t, ht, hflags⟩ := Option.bind_eq_some_iff.mp hflags
  obtain ⟨u, hu, hflags⟩ := Option.map_eq_some_iff.mp hflags
  obtain ⟨hfree, hin⟩ := Prod.mk.inj hflags
  have hstays : Runs.Throughout Server.step (fun v => v.connected 1 = true) t
      [.switchToGame, .propagateGameData ⟨[7], by decide⟩] := by
    refine Runs.throughout_cons.mpr ⟨hin, fun v hv => ?_⟩
    cases hv
    refine Runs.throughout_cons.mpr ⟨hin, fun w hw => ?_⟩
    obtain rfl := Outcome.next_some hw
    exact Runs.throughout_nil.mpr
      ((congrFun (propagateSlots_counted _ [1, 2, 3] _).connected 1).trans hin)
  have hjoin := Runs.run_snoc hs ht
  have hstable := (sessions_stable ⟨_, hs⟩).2.2.2 1 _ t (by decide) hfree ht hin _ u (by decide)
    hstays hu
  exact ⟨t, u, hjoin, hu, hstable.2.2 ⟨[8, 9], by decide⟩ (by decide)⟩

end GameNetwork.Proofs
