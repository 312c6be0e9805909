import GameNetwork.Proofs.Delivery
import GameNetwork.Proofs.Escapes
import GameNetwork.Proofs.Propagate
import GameNetwork.Proofs.Refused
import GameNetwork.Proofs.Rejected
import GameNetwork.Proofs.Reported

namespace GameNetwork.Proofs

variable {C : Crypto} {s : Server C} {c : Client C} {a : Address} {data : List UInt8}
  {k : ShortSharedKey} {sequence : UInt16} {p_size : UInt32} {i : Slot}

/-- Game data verifies under any key as game data or as nothing. -/
theorem data_type (k' k : ShortSharedKey) (sequence : UInt16) (data : List UInt8) :
    hmacType C k' (sealed C k (dataMessage sequence data)) = .connectionData ∨
      hmacType C k' (sealed C k (dataMessage sequence data)) = .invalidPacket := by
  have h := hmacType_cases C k' (sealed C k (dataMessage sequence data))
  rw [dataMessage, getD_sealed_header] at h
  exact h

/-- It is no request by its CRC either. -/
theorem data_no_request (k : ShortSharedKey) (sequence : UInt16) (data : List UInt8) :
    crcType (sealed C k (dataMessage sequence data)) ≠ .ok .connectionRequest := by
  intro h
  have ht := (crcType_ne_invalid h (by simp)).2
  rw [dataMessage, getD_sealed_header] at ht
  cases ht

/-- The server finds the sender in a slot past 0, and what it sent is game data under the key
of that slot. -/
def FromSlot (s : Server C) (a : Address) (d : List UInt8) : Prop :=
  s.findExistingConnectionIndex a > 0 ∧
    hmacType C (s.connections (slot (s.findExistingConnectionIndex a))).sharedKey d =
      .connectionData

instance (s : Server C) (a : Address) (d : List UInt8) : Decidable (FromSlot s a d) :=
  inferInstanceAs (Decidable (_ ∧ _))

/-- All that a verification without a slot past 0 makes of game data. -/
theorem classify_unfound (hn : ¬ s.findExistingConnectionIndex a > 0) {v : Option PacketType}
    (h : classify s a (sealed C k (dataMessage sequence data)) = .ok v) :
    v = none ∨ v = some .invalidPacket ∨ v = some .connectionData := by
  rw [classify, if_neg hn] at h
  split at h
  · split at h
    · rename_i t ht
      split at h
      · rename_i hreq
        subst hreq
        exact absurd ht (data_no_request k sequence data)
      · cases h
        exact .inl rfl
    · cases h
  · cases h
    rcases data_type (C := C) (s.challenges (slot (s.findExistingChallengeIndex a))).resolved.sharedKey
      k sequence data with ht | ht
    · exact .inr (.inr (congrArg some ht))
    · exact .inr (.inl (congrArg some ht))

/-- Without a slot past 0 the sender's game data is read and dropped. -/
theorem dispatch_data_unfound {b b' : Buffer} {packet : ConnectionDataPacket} (seed : C.Seed)
    (p_size : UInt32) (hn : ¬ s.findExistingConnectionIndex a > 0)
    (hr : ConnectionDataPacket.read.run b = .ok packet b') :
    (s.dispatch .connectionData a b seed p_size).result = .ok { ret := 0 } := by
  rw [Server.dispatch, hr]
  simp only [if_neg hn]
  split <;> rfl

section
variable (hd : (sealed C k (dataMessage sequence data)).length ≤ receiveSize) (seed : C.Seed)
include hd

/-- Game data from anybody else is dropped. -/
theorem not_fromSlot_result (h : ¬ FromSlot s a (sealed C k (dataMessage sequence data))) :
    (s.listen (some (a, sealed C k (dataMessage sequence data))) seed p_size).result =
      .ok { ret := 0 } := by
  obtain ⟨b, hl, hb⟩ := listen_received s a seed p_size hd
  rw [hl]
  by_cases hc : s.findExistingConnectionIndex a > 0
  · have ht := (data_type (C := C) (s.connections
      (slot (s.findExistingConnectionIndex a))).sharedKey k sequence data).resolve_left
      fun ht => h ⟨hc, ht⟩
    rw [classify_connected hc, ht]
    rfl
  cases hv : classify s a (sealed C k (dataMessage sequence data)) with
  | error e =>
    rw [classify_error hv]
    rfl
  | ok v =>
    rcases classify_unfound hc hv with rfl | rfl | rfl
    · rfl
    · rfl
    · obtain ⟨hcon, hinfo, -⟩ := prepared_connections s a
      have hn : ¬ (prepared s a).findExistingConnectionIndex a > 0 := by
        rwa [Server.findExistingConnectionIndex, hcon, hinfo]
      rw [length_sealed, length_dataMessage] at hd
      obtain ⟨b', hr⟩ := data_read (by omega) (hb _ hv (by simp))
      have hres := dispatch_data_unfound seed p_size hn hr
      dsimp only
      rw [Outcome.catchStd, hres]
      exact hres

/-- Game data from a slot is returned when the caller's buffer holds four bytes more than its
datagram, and refused with -1 otherwise. -/
theorem fromSlot_result (hs : s.state = .game)
    (h : FromSlot s a (sealed C k (dataMessage sequence data))) :
    (s.listen (some (a, sealed C k (dataMessage sequence data))) seed p_size).result =
      if 47 + data.length ≤ p_size.toNat then
        .ok { ret := data.length
              gameData := some (nativeInt (s.findExistingConnectionIndex a) ++ data) }
      else .ok { ret := -1 } := by
  have hroom := room_iff p_size hd
  have hlen := length_sealed C k (dataMessage sequence data)
  rw [length_dataMessage] at hlen
  by_cases hp : 47 + data.length ≤ p_size.toNat
  · rw [if_pos hp]
    exact takes_returns ⟨hd, hs, h.1, h.2, hroom.mpr (by omega)⟩ seed
  · have hclass := classify_connected (d := sealed C k (dataMessage sequence data)) h.1
    rw [h.2] at hclass
    obtain ⟨b, hl, hb⟩ := listen_received s a seed p_size hd
    have hat := hb _ hclass (by simp)
    obtain ⟨b', hr⟩ := data_read (by omega) hat
    have hno : ¬ sizeT (int32 p_size.toNat) ≥ sizeT b'.size + 4 := by
      rw [data_read_size hr, hat.size, hroom]
      omega
    have hprep : prepared s a = s := if_pos h.1
    rw [if_neg hp, hl, hclass]
    simp only [hprep, Server.dispatch, if_pos hs, hr, if_pos h.1, if_neg hno]
    rfl

end

/-- What a payload from slot `i` is owed: to be returned behind its index when the caller's buffer
holds both, and -1 with nothing stored when it does not. -/
structure Delivers (i : Slot) (data : List UInt8) (p_size : UInt32)
    (result : Except Fault Listened) : Prop where
  room : 4 + data.length ≤ p_size.toNat →
    result = .ok { ret := data.length, gameData := some (nativeInt i.val ++ data) }
  small : p_size.toNat < 4 + data.length → result = .ok { ret := -1, gameData := none }

theorem not_delivers_dropped : ¬ Delivers i data p_size (.ok { ret := 0 }) := by
  intro h
  by_cases hp : 4 + data.length ≤ p_size.toNat
  · cases congrArg Listened.gameData (Except.ok.inj (h.room hp))
  · cases Except.ok.inj (h.small (by omega))

theorem delivers_refused_iff :
    Delivers i data p_size (.ok { ret := -1 }) ↔ p_size.toNat < 4 + data.length := by
  constructor
  · intro h
    by_contra hp
    cases congrArg Listened.gameData (Except.ok.inj (h.room (by omega)))
  · intro hp
    exact ⟨fun h => by omega, fun _ => rfl⟩

theorem delivers_stored_iff {j : Slot} (hp : 4 + data.length ≤ p_size.toNat) :
    Delivers i data p_size
      (.ok { ret := data.length, gameData := some (nativeInt j.val ++ data) }) ↔ j = i := by
  constructor
  · intro h
    have he := congrArg Listened.gameData (Except.ok.inj (h.room hp))
    exact nativeInt_slot j i (List.append_cancel_right (Option.some.inj he))
  · rintro rfl
    exact ⟨fun _ => rfl, fun h => by omega⟩

/-- The server delivers a payload as its output format asks when the lookup ends at the slot it
came from and the caller's buffer is too small for index and payload, or four bytes larger than
the datagram. When the lookup ends at another slot under whose key the datagram verifies too, a
buffer that is too small is all it handles. -/
theorem delivers_iff {data : GameData} {reported : Bool} {out : Outgoing} (hs : s.state = .game)
    (hi : i ≠ 0) (hk : c.sharedKey = (s.connections i).sharedKey)
    (ho : out ∈ (c.sendGameData data reported).sent) (hd : out.bytes.length ≤ receiveSize)
    (seed : C.Seed) (p_size : UInt32) :
    Delivers i data.bytes p_size
        (s.listen (some ((s.connections i).clientAddress, out.bytes)) seed p_size).result ↔
      s.findExistingConnectionIndex (s.connections i).clientAddress = i.val ∧
          (p_size.toNat < 4 + data.bytes.length ∨ 47 + data.bytes.length ≤ p_size.toNat) ∨
        s.findExistingConnectionIndex (s.connections i).clientAddress ≠ i.val ∧
          FromSlot s (s.connections i).clientAddress out.bytes ∧
          p_size.toNat < 4 + data.bytes.length := by
  obtain ⟨-, rfl⟩ := sendGameData_sends ho
  dsimp only at hd ⊢
  have hfound : s.findExistingConnectionIndex (s.connections i).clientAddress = i.val →
      FromSlot s (s.connections i).clientAddress
        (sealed C c.sharedKey (dataMessage (c.sequence + 1) data.bytes)) := by
    intro he
    have hpos : i.val ≠ 0 := fun hz => hi (Fin.ext hz)
    refine ⟨by omega, ?_⟩
    rw [he, slot_val, hk, dataMessage, hmacType_sealed]
    rfl
  by_cases hf : FromSlot s (s.connections i).clientAddress
    (sealed C c.sharedKey (dataMessage (c.sequence + 1) data.bytes))
  · obtain ⟨j, hj, -⟩ := connection_found hf.1
    have hji : (j.val : Int) = i.val ↔ j = i := by
      rw [Nat.cast_inj, Fin.val_inj]
    rw [fromSlot_result hd seed hs hf, hj, ne_eq, hji]
    by_cases hp : 47 + data.bytes.length ≤ p_size.toNat
    · rw [if_pos hp, delivers_stored_iff (by omega)]
      constructor
      · exact fun h => .inl ⟨h, .inr hp⟩
      · rintro (h | ⟨-, -, h⟩)
        · exact h.1
        · omega
    · rw [if_neg hp, delivers_refused_iff]
      constructor
      · intro h
        by_cases he : j = i
        · exact .inl ⟨he, .inl h⟩
        · exact .inr ⟨he, hf, h⟩
      · rintro (⟨-, h⟩ | ⟨-, -, h⟩)
        · omega
        · exact h
  · rw [not_fromSlot_result hd seed hf]
    refine iff_of_false not_delivers_dropped ?_
    rintro (⟨he, -⟩ | ⟨-, h, -⟩)
    · exact hf (hfound he)
    · exact hf h

theorem sample_payload_sent :
    (⟨sampleAddress 9, sealed sample sampleShared (dataMessage 1 [7])⟩ : Outgoing) ∈
      (sampleConnected.sendGameData (samplePayload 7) true).sent := by
  rw [sendGameData_connected rfl _ (by decide)]
  exact List.mem_singleton.mpr rfl

/-- One byte into a buffer of 64, and not into one of 16. -/
theorem delivers_sample :
    Delivers 1 [7] 64 (sampleServer.switchToGame.listen (some (sampleAddress 1,
      sealed sample sampleShared (dataMessage 1 [7]))) (0 : Fin 8) 64).result ∧
    ¬ Delivers 1 [7] 16 (sampleServer.switchToGame.listen (some (sampleAddress 1,
      sealed sample sampleShared (dataMessage 1 [7]))) (0 : Fin 8) 16).result := by
  have hslot : sampleServer.switchToGame.findExistingConnectionIndex (sampleAddress 1) =
      (1 : Slot).val := by decide +kernel
  have hiff := delivers_iff (s := sampleServer.switchToGame) (i := 1) (c := sampleConnected) rfl
    (by decide) rfl sample_payload_sent (by decide +kernel) (0 : Fin 8)
  constructor
  · exact (hiff 64).mpr (.inl ⟨hslot, .inr (by decide)⟩)
  · intro h
    rcases (hiff 16).mp h with ⟨-, hroom⟩ | ⟨hno, -⟩
    · exact absurd hroom (by decide)
    · exact hno hslot

/-- Index and payload fit in 16 bytes, but the datagram does not. -/
theorem roomy_buffer_refused :
    ¬ ∀ s : Server sample, Reachable s → s.state = .game → ∀ i, i ≠ 0 → s.connected i = true →
      ∀ (c : Client sample) (data : GameData) (reported : Bool) (out : Outgoing)
        (seed : sample.Seed) (p_size : UInt32), c.sharedKey = (s.connections i).sharedKey →
        out ∈ (c.sendGameData data reported).sent → out.bytes.length ≤ receiveSize →
        p_size.toNat < 2 ^ 31 →
        Delivers i data.bytes p_size
          (s.listen (some ((s.connections i).clientAddress, out.bytes)) seed p_size).result := by
  intro h
  have hrun : (Runs.run Server.step (Server.create sample)
      (sampleJoin (sampleAddress 1) 0 1 ++ [.switchToGame])).map
      (fun s => decide (s.state = .game ∧ s.connected 1 = true ∧
        (s.connections 1).sharedKey = sampleShared ∧
        (s.listen (some ((s.connections 1).clientAddress,
          sealed sample sampleShared (dataMessage 1 [7]))) (0 : Fin 8) 16).result =
            .ok { ret := -1 })) = some true := by
    decide +kernel
  obtain ⟨s, hs, hd⟩ := Option.map_eq_some_iff.mp hrun
  obtain ⟨hgame, hc, hk, hres⟩ := of_decide_eq_true hd
  have hdel := h s ⟨_, hs⟩ hgame 1 (by decide) hc sampleConnected (samplePayload 7) true _
    (0 : Fin 8) 16 hk.symm sample_payload_sent (by decide +kernel) (by decide)
  rw [hres] at hdel
  exact absurd (delivers_refused_iff.mp hdel) (by decide)

/-- A datagram longer than the receive buffer is lost, and the call returns 0. -/
theorem oversized_result (c : Client C) (source : Address) {d : List UInt8} (p_size : UInt32)
    (received now : Int) (hd : receiveSize < d.length) :
    (c.listen (some (source, d)) p_size received now).result = .ok { ret := 0 } := by
  rw [client_listen_failed (receive_oversized source hd)]
  exact checkTimeout_result c now

/-- What is sent to a connected slot, and what its client makes of it: the payload is returned up
to the size of the receive buffer, and a larger one is lost. -/
theorem sent_received (hi : i ≠ 0) (hconn : s.connected i = true) (data : GameData)
    (hsize : 43 + data.bytes.length ≤ 65507) (hc : c.state = .connected)
    (hk : c.sharedKey = (s.connections i).sharedKey)
    (hseq : sequenceGreaterThan ((s.connections i).sequence + 1) c.ack = true)
    (hp : data.bytes.length ≤ p_size.toNat) (source : Address) (received now : Int) :
    slotDatagram s data i ∈ (s.propagateGameData data).sent ∧
      (c.listen (some (source, (slotDatagram s data i).bytes)) p_size received now).result =
        if 43 + data.bytes.length ≤ receiveSize then
          .ok { ret := data.bytes.length, gameData := some data.bytes }
        else .ok { ret := 0 } := by
  constructor
  · have hmem : ∀ j : Slot, j ≠ 0 → j ∈ ([1, 2, 3] : List Slot) := by decide
    rw [Server.propagateGameData, propagateSlots_sent data (by omega) _ (by decide)]
    exact List.mem_map_of_mem (List.mem_filter.mpr ⟨hmem i hi, hconn⟩)
  · rw [slotDatagram, ← hk]
    dsimp only
    by_cases hfit : 43 + data.bytes.length ≤ receiveSize
    · rw [listen_data hc source _ hfit hp, if_pos hseq, if_pos hfit]
    · rw [if_neg hfit, oversized_result]
      rw [length_sealed, length_dataMessage]
      omega

/-- One byte is sent and received. -/
theorem sent_received_sample :
    slotDatagram sampleServer (samplePayload 7) 1 ∈
        (sampleServer.propagateGameData (samplePayload 7)).sent ∧
      (sampleConnected.listen (some (sampleAddress 9,
          (slotDatagram sampleServer (samplePayload 7) 1).bytes)) 16 0 0).result =
        if 43 + (samplePayload 7).bytes.length ≤ receiveSize then
          .ok { ret := (samplePayload 7).bytes.length, gameData := some (samplePayload 7).bytes }
        else .ok { ret := 0 } :=
  sent_received (by decide) rfl (samplePayload 7) (by decide) rfl rfl (by decide) (by decide)
    (sampleAddress 9) 0 0

def largePayload : List UInt8 := List.replicate 982 0

theorem length_largePayload : largePayload.length = 982 := List.length_replicate

/-- A payload of 982 bytes makes a datagram of 1025. -/
theorem large_payload_lost :
    ¬ ∀ (s : Server sample) (i : Slot) (data : GameData) (c : Client sample) (source : Address)
      (p_size : UInt32) (received now : Int), i ≠ 0 → s.connected i = true →
      43 + data.bytes.length ≤ 65507 → c.state = .connected →
      c.sharedKey = (s.connections i).sharedKey →
      sequenceGreaterThan ((s.connections i).sequence + 1) c.ack = true →
      data.bytes.length ≤ p_size.toNat →
      (c.listen (some (source, (slotDatagram s data i).bytes)) p_size received now).result =
        .ok { ret := data.bytes.length, gameData := some data.bytes } := by
  intro h
  have hlt : largePayload.length < 2 ^ 32 := by rw [length_largePayload]; decide
  have hres := h sampleServer 1 ⟨largePayload, hlt⟩ sampleConnected (sampleAddress 9) 1024 0 0
    (by decide) rfl (by simp [length_largePayload]) rfl rfl (by decide)
    (by simp [length_largePayload])
  have hlong : receiveSize < (slotDatagram sampleServer ⟨largePayload, hlt⟩ 1).bytes.length := by
    rw [slotDatagram, length_sealed, length_dataMessage, length_largePayload]
    decide
  rw [oversized_result sampleConnected (sampleAddress 9) 1024 0 0 hlong] at hres
  cases congrArg Listened.gameData (Except.ok.inj hres)

end GameNetwork.Proofs
