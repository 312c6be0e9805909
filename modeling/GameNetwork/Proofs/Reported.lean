import GameNetwork.Proofs.GameData
import GameNetwork.Proofs.Room
import GameNetwork.Proofs.Sessions

namespace GameNetwork.Proofs
open Buffer

variable {C : Crypto} {s : Server C} {c : Client C} {sender : Address} {d data : List UInt8}
  {arrival : Arrival} {seed : C.Seed} {p_size : UInt32} {received now : Int} {l : Listened}
  {b : Buffer} {i : Slot}

theorem length_nativeInt (n : Int) : (nativeInt n).length = 4 := by simp [nativeInt]

theorem nativeInt_slot : ∀ i j : Slot, nativeInt i.val = nativeInt j.val → i = j := by decide

/-- A buffer stands at the body of a datagram with the game data. -/
def Holding (d : List UInt8) (data : List UInt8) : Prop :=
  ∃ b b' packet, AtBody d b ∧ ConnectionDataPacket.read.run b = .ok packet b' ∧
    packet.gameData = data

/-- The server can take a datagram for game data: it fits the receive buffer, its sender has a
slot past 0 under whose key it verifies, and the caller's buffer has room. -/
structure Takes (s : Server C) (sender : Address) (d : List UInt8) (p_size : UInt32) : Prop where
  size : d.length ≤ receiveSize
  state : s.state = .game
  index : s.findExistingConnectionIndex sender > 0
  type : hmacType C (s.connections (slot (s.findExistingConnectionIndex sender))).sharedKey d =
    .connectionData
  room : sizeT (int32 p_size.toNat) ≥ sizeT d.length + 4

theorem takes_iff : Takes s sender d p_size ↔ d.length ≤ receiveSize ∧ s.state = .game ∧
    s.findExistingConnectionIndex sender > 0 ∧
    hmacType C (s.connections (slot (s.findExistingConnectionIndex sender))).sharedKey d =
      .connectionData ∧
    sizeT (int32 p_size.toNat) ≥ sizeT d.length + 4 :=
  ⟨fun h => ⟨h.size, h.state, h.index, h.type, h.room⟩, fun ⟨h1, h2, h3, h4, h5⟩ =>
    ⟨h1, h2, h3, h4, h5⟩⟩

instance : Decidable (Takes s sender d p_size) := decidable_of_iff' _ takes_iff

theorem holding_sealed {k : ShortSharedKey} {sequence : UInt16} {payload : List UInt8}
    (hd : (sealed C k (dataMessage sequence payload)).length ≤ receiveSize)
    (h : Holding (sealed C k (dataMessage sequence payload)) data) : data = payload := by
  obtain ⟨b, b', packet, hb, hr, rfl⟩ := h
  rw [length_sealed, length_dataMessage] at hd
  obtain ⟨b'', hr'⟩ := data_read (by omega) hb
  cases hr.symm.trans hr'
  rfl

theorem AtBody.size (h : AtBody d b) : b.size = d.length := by
  obtain ⟨d', rest, hlen, -, -, rfl⟩ := h
  rw [view_size, hlen]

/-- Reading moves the cursor only. -/
theorem load_size {n : Nat} {bs : List UInt8} {b' : Buffer} (h : (load n).run b = .ok bs b') :
    b'.size = b.size := by
  rw [load, ok_bind (EStateM.run_get _)] at h
  split at h
  · rw [ok_bind (EStateM.run_set _ _)] at h
    cases h
    rfl
  · cases h

theorem readBytes_size {n : Nat} {bs : List UInt8} {b' : Buffer}
    (h : (readBytes n).run b = .ok bs b') : b'.size = b.size := by
  induction n generalizing b bs b' with
  | zero => cases h; rfl
  | succ n ih =>
    obtain ⟨_, c, hl, h⟩ := bind_ok h
    obtain ⟨_, c', hr, h⟩ := bind_ok h
    cases h
    exact (ih hr).trans (load_size hl)

theorem data_read_size {packet : ConnectionDataPacket} {b' : Buffer}
    (h : ConnectionDataPacket.read.run b = .ok packet b') : b'.size = b.size := by
  obtain ⟨_, c, hs, h⟩ := bind_ok h
  obtain ⟨_, c1, hs1, hs⟩ := bind_ok hs
  obtain ⟨_, c2, hs2, hs⟩ := bind_ok hs
  cases hs
  obtain ⟨_, d, hi, h⟩ := bind_ok h
  obtain ⟨_, d1, hi1, hi⟩ := bind_ok hi
  obtain ⟨_, d2, hi2, hi⟩ := bind_ok hi
  cases hi
  obtain ⟨_, e, hg, h⟩ := bind_ok h
  obtain ⟨_, e1, hg1, hg⟩ := bind_ok hg
  cases h
  rw [readBytes_size hg, checkRoomUnsigned_ok hg1, load_size hi2, (checkRoom_ok hi1).1,
    load_size hs2, (checkRoom_ok hs1).1]

theorem catchStd_ok {o : Outcome (Server C) Listened} {value : Listened}
    (h : (o.catchStd value).result = .ok l) : o.result = .ok l ∨ l = value := by
  unfold Outcome.catchStd at h
  split at h
  · split at h
    · exact .inr (Except.ok.inj h).symm
    · exact .inl h
  · exact .inl h

theorem returning_stores {o : Outcome (Server C) Unit} {ret : Int}
    (h : (o.returning ({ ret } : Listened)).result = .ok l) : l.gameData = none := by
  unfold Outcome.returning at h
  cases ho : o.result with
  | error fault => rw [ho] at h; cases h
  | ok u => rw [ho] at h; cases h; rfl

/-- Only the `CONNECTION_DATA` case of the `switch` stores anything. -/
theorem dispatch_stores {t : PacketType} (ht : t ≠ .connectionData)
    (h : (s.dispatch t sender b seed p_size).result = .ok l) : l.gameData = none := by
  unfold Server.dispatch at h
  cases t with
  | connectionData => exact absurd rfl ht
  | connectionRequest | challengeResponse =>
    dsimp only at h
    split at h
    · split at h
      · exact returning_stores h
      · cases h
    · cases h
      rfl
  | disconnect =>
    dsimp only at h
    split at h
    · split at h
      · cases h
        rfl
      · cases h
        rfl
    · cases h
  | invalidPacket | challenge | connectionAccepted | other => cases h; rfl

/-- It stores in the `GAME` state, for a sender with a slot past 0 and a buffer with room. -/
theorem dispatch_reports {g : List UInt8}
    (h : (s.dispatch .connectionData sender b seed p_size).result = .ok l)
    (hg : l.gameData = some g) :
    s.state = .game ∧ s.findExistingConnectionIndex sender > 0 ∧
      ∃ packet b', ConnectionDataPacket.read.run b = .ok packet b' ∧
        sizeT (int32 p_size.toNat) ≥ sizeT b'.size + 4 ∧
        g = nativeInt (s.findExistingConnectionIndex sender) ++ packet.gameData := by
  have hnone {ret : Int} (he : (Except.ok { ret } : Except Fault Listened) = .ok l) : False := by
    cases he
    cases hg
  rw [Server.dispatch] at h
  split at h
  · rename_i hgame
    split at h
    · rename_i packet b' hr
      dsimp only at h
      split at h
      · rename_i hidx
        split at h
        · rename_i hroom
          obtain rfl := Except.ok.inj h
          exact ⟨hgame, hidx, packet, b', hr, hroom, (Option.some.inj hg).symm⟩
        · exact (hnone h).elim
      · exact (hnone h).elim
    · cases h
  · exact (hnone h).elim

/-- A sender that has a slot past 0 after the verification had it before, and then the
verification changes nothing. -/
theorem prepared_index (h : (prepared s sender).findExistingConnectionIndex sender > 0) :
    s.findExistingConnectionIndex sender > 0 ∧ prepared s sender = s := by
  have hpos : s.findExistingConnectionIndex sender > 0 := by
    unfold prepared at h
    split at h
    · exact h
    · split at h
      · exact h
      · exact h
  exact ⟨hpos, if_pos hpos⟩

/-- Game data that `Server::Listen` returns begins with the slot it is from. -/
theorem server_listen_reports {g : List UInt8}
    (h : (s.listen arrival seed p_size).result = .ok l) (hg : l.gameData = some g) :
    ∃ sender d data, arrival = some (sender, d) ∧ Takes s sender d p_size ∧ Holding d data ∧
      g = nativeInt (s.findExistingConnectionIndex sender) ++ data := by
  rcases receive_cases arrival with hf | ⟨sender, d, rfl, hd⟩
  · rw [listen_failed hf] at h
    cases h
    cases hg
  obtain ⟨b, hl, hb⟩ := listen_received s sender seed p_size hd
  rw [hl] at h
  rcases catchStd_ok h with h | rfl
  case inr => cases hg
  cases ht : classify s sender d with
  | error e => rw [ht] at h; cases h
  | ok v =>
    cases v with
    | none => rw [ht] at h; cases h; cases hg
    | some t =>
      rw [ht] at h
      dsimp only at h
      by_cases hdata : t = .connectionData
      · subst hdata
        obtain ⟨hgame, hidx, packet, b', hr, hroom, rfl⟩ := dispatch_reports h hg
        obtain ⟨hpos, hprep⟩ := prepared_index hidx
        have hat := hb .connectionData ht (by simp)
        rw [hprep] at hgame ⊢
        rw [classify_connected hpos] at ht
        rw [data_read_size hr, hat.size] at hroom
        exact ⟨sender, d, packet.gameData, rfl,
          ⟨hd, hgame, hpos, Option.some.inj (Except.ok.inj ht), hroom⟩,
          ⟨b, b', packet, hat, hr, rfl⟩, rfl⟩
      · rw [dispatch_stores hdata h] at hg
        cases hg

/-- The caller's buffer has room when it holds four bytes more than the datagram. A size past
the range of an `int` counts as room. -/
theorem room_iff (p_size : UInt32) {n : Nat} (hn : n ≤ receiveSize) :
    sizeT (int32 p_size.toNat) ≥ sizeT n + 4 ↔ n + 4 ≤ p_size.toNat := by
  have hu := p_size.toNat_lt
  rw [receiveSize] at hn
  have hsize : sizeT (n : Int) = n := sizeT_eq (by omega) (by omega)
  rw [hsize]
  by_cases hp : p_size.toNat < 2 ^ 31
  · have hi : int32 (p_size.toNat : Int) = p_size.toNat := int32_eq (by omega) (by omega)
    rw [hi, sizeT_eq (by omega) (by omega), Int.toNat_natCast]
  · have hi : int32 (p_size.toNat : Int) = p_size.toNat - 2 ^ 32 := by
      rw [int32, Int.bmod_def]
      omega
    have hwrap : sizeT ((p_size.toNat : Int) - 2 ^ 32) = p_size.toNat + 2 ^ 64 - 2 ^ 32 := by
      rw [sizeT]
      omega
    rw [hi, hwrap]
    omega

/-- A datagram that the server can take is returned with its slot when the payload it claims
ends inside it. -/
theorem takes_inside (h : Takes s sender d p_size)
    (hin : 11 + (gameDataSizeOf d).toNat ≤ d.length) (seed : C.Seed) :
    (s.listen (some (sender, d)) seed p_size).result =
      .ok { ret := (gameDataSizeOf d).toNat
            gameData := some (nativeInt (s.findExistingConnectionIndex sender) ++ gameDataOf d) } := by
  have hd := h.size
  have ht : classify s sender d = .ok (some .connectionData) := by
    rw [classify_connected h.index, h.type]
  obtain ⟨b, hl, hb⟩ := listen_received s sender seed p_size hd
  have hat := hb .connectionData ht (by simp)
  obtain ⟨b', hr⟩ := data_read_inside hat hin
  have hprep : prepared s sender = s := if_pos h.index
  have hroom : sizeT (int32 p_size.toNat) ≥ sizeT b'.size + 4 := by
    rw [data_read_size hr, hat.size]
    exact h.room
  rw [receiveSize] at hd
  have hint : int32 (((gameDataSizeOf d).toNat : Nat) : Int) = (gameDataSizeOf d).toNat :=
    int32_eq (by omega) (by omega)
  rw [hl, ht]
  simp only [hprep, Server.dispatch, if_pos h.state, hr, if_pos h.index, if_pos hroom, hint]
  rfl

/-- A datagram that a client sent and the server can take is returned with its slot. -/
theorem takes_returns {k : ShortSharedKey} {sequence : UInt16}
    (h : Takes s sender (sealed C k (dataMessage sequence data)) p_size) (seed : C.Seed) :
    (s.listen (some (sender, sealed C k (dataMessage sequence data))) seed p_size).result =
      .ok { ret := data.length
            gameData := some (nativeInt (s.findExistingConnectionIndex sender) ++ data) } := by
  have hlen := h.size
  rw [length_sealed, length_dataMessage, receiveSize] at hlen
  have hsize : (gameDataSizeOf (sealed C k (dataMessage sequence data))).toNat = data.length := by
    rw [gameDataSizeOf_message, UInt32.toNat_ofNat']
    omega
  have hr := takes_inside h (by rw [hsize, length_sealed, length_dataMessage]; omega) seed
  rwa [hsize, gameDataOf_message k sequence (by omega)] at hr

/-- The end of a call on a client stores nothing. -/
theorem checkTimeout_stores (h : (c.checkTimeout now).result = .ok l) : l.gameData = none := by
  rw [checkTimeout_result] at h
  cases h
  rfl

/-- Only the `CONNECTION_DATA` case of the `switch` stores anything, in a session. -/
theorem client_dispatch_reports {t : PacketType} {g : List UInt8} (hb : AtBody d b)
    (h : (concluded now (c.dispatch t b p_size)).result = .ok l) (hg : l.gameData = some g) :
    t = .connectionData ∧ c.state = .connected ∧ Holding d g := by
  have htimeout {c : Client C} (he : (c.checkTimeout now).result = .ok l) : False := by
    rw [checkTimeout_stores he] at hg
    cases hg
  have hsw := dispatch_switched c t p_size hb
  generalize c.dispatch t b p_size = r at hsw h
  cases hsw with
  | ignored | challenge | accepted | dropped => exact (htimeout h).elim
  | challenge_short | accepted_short | data_short => cases h
  | data_old =>
    cases h
    cases hg
  | data hs hin _ hl =>
    obtain rfl := Except.ok.inj h
    obtain ⟨b', hr⟩ := data_read_inside hb hin
    exact ⟨rfl, hs, b, b', _, hb, hr, (hl g hg).symm⟩

/-- Game data that `Client::Listen` returns came in a datagram under its key. -/
theorem client_listen_reports {g : List UInt8}
    (h : (c.listen arrival p_size received now).result = .ok l) (hg : l.gameData = some g) :
    ∃ source d, arrival = some (source, d) ∧ d.length ≤ receiveSize ∧ c.state = .connected ∧
      hmacType C c.sharedKey d = .connectionData ∧ Holding d g := by
  rcases receive_cases arrival with hf | ⟨source, d, rfl, hd⟩
  · rw [client_listen_failed hf] at h
    rw [checkTimeout_stores h] at hg
    cases hg
  obtain ⟨b, hl, hb⟩ := client_listen_received c source p_size received now hd
  rw [hl] at h
  cases ht : clientType c d with
  | error e => rw [ht] at h; cases h
  | ok t =>
    rw [ht] at h
    dsimp only at h
    split at h
    · rename_i hne
      have hat := hb t ht hne
      obtain ⟨rfl, hs, hh⟩ := client_dispatch_reports hat h hg
      have hstate : c.state = .connected := hs
      rw [clientType, if_neg (by simp [hstate])] at ht
      exact ⟨source, d, rfl, hd, hstate, Except.ok.inj ht, hh⟩
    · rw [checkTimeout_stores h] at hg
      cases hg

end GameNetwork.Proofs
