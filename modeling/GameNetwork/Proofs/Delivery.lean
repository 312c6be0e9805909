import GameNetwork.Channel
import GameNetwork.Proofs.GameData
import GameNetwork.Proofs.Ideal
import GameNetwork.Proofs.Propagate

namespace GameNetwork.Proofs

variable {C : Crypto} {i : Slot} {a : Address} {k : ShortSharedKey} {ch : Channel C}

/-- A client's first session, in a slot of the server that is the only one of its address. -/
structure FirstSession (s : Server C) (i : Slot) (a : Address) (c : Client C) : Prop where
  slot : i ≠ 0
  connected : s.connected i = true
  address : (s.connections i).clientAddress = a
  only : ∀ j, s.connected j = true → (s.connections j).clientAddress = a → j = i
  sharedKey : (s.connections i).sharedKey = c.sharedKey
  sequence : (s.connections i).sequence = 0
  state : c.state = .connected
  ack : c.ack = 0

/-- What the network and the callers keep to: payloads fit the buffers of both sides, and what
is delivered was sent within half a range of the newest accepted packet. -/
def InWindow (ch : Channel C) : ChannelAction → Prop
  | .propagate data => 43 + data.bytes.length ≤ receiveSize
  | .deliver n _ p_size _ _ =>
    (∀ data ∈ ch.propagated[n]?, data.length ≤ p_size.toNat) ∧
      n + 1 ≤ ch.newest + 32767 ∧ ch.newest ≤ n + 1 + 32767

instance (ch : Channel C) : (action : ChannelAction) → Decidable (InWindow ch action)
  | .propagate _ => inferInstanceAs (Decidable (_ ≤ _))
  | .deliver .. => inferInstanceAs (Decidable (_ ∧ _))

/-- The datagram of a payload at its place. -/
def datagramAt (C : Crypto) (k : ShortSharedKey) (n : Nat) (data : List UInt8) : List UInt8 :=
  sealed C k (dataMessage (UInt16.ofNat (n + 1)) data)

/-- The 16-bit counters of both sides follow the send indices. -/
structure InOrder (i : Slot) (a : Address) (k : ShortSharedKey) (ch : Channel C) : Prop where
  connected : ch.server.connected i = true
  address : (ch.server.connections i).clientAddress = a
  only : ∀ j, ch.server.connected j = true → (ch.server.connections j).clientAddress = a → j = i
  slotKey : (ch.server.connections i).sharedKey = k
  sequence : (ch.server.connections i).sequence = UInt16.ofNat ch.propagated.length
  state : ch.client.state = .connected
  clientKey : ch.client.sharedKey = k
  ack : ch.client.ack = UInt16.ofNat ch.newest
  wire : ch.wire = ch.propagated.mapIdx (datagramAt C k)
  fits : ∀ data ∈ ch.propagated, 43 + data.length ≤ receiveSize
  accepted_le : ∀ n ∈ ch.accepted, n ≤ ch.newest
  newest_le : ch.newest ≤ ch.propagated.length
  returned : ch.returned.Sublist (ch.propagated.take ch.newest)

theorem FirstSession.inOrder {s : Server C} {c : Client C} (h : FirstSession s i a c) :
    InOrder i a c.sharedKey { server := s, client := c } where
  connected := h.connected
  address := h.address
  only := h.only
  slotKey := h.sharedKey
  sequence := h.sequence
  state := h.state
  clientKey := rfl
  ack := h.ack
  wire := rfl
  fits _ hd := by simp at hd
  accepted_le _ hn := by simp at hn
  newest_le := by simp [Channel.newest]
  returned := by simp

theorem propagate_inOrder (hi : i ≠ 0) (h : InOrder i a k ch) {data : GameData}
    (hfit : 43 + data.bytes.length ≤ receiveSize) : InOrder i a k (ch.propagate a data) := by
  have hu : 43 + data.bytes.length < 2 ^ 31 := by rw [receiveSize] at hfit; omega
  have hc := propagateSlots_counted data [1, 2, 3] ch.server
  have hmem : ∀ j : Slot, j ≠ 0 → j ∈ ([1, 2, 3] : List Slot) := by decide
  have hseq := propagateSlots_sequence data hu [1, 2, 3] (by decide) ch.server h.connected
  have hsent := propagate_to_slot data hu hi h.connected h.address h.only
  rw [if_pos (hmem i hi), h.sequence] at hseq
  rw [h.slotKey, h.sequence] at hsent
  have hnext : UInt16.ofNat ch.propagated.length + 1 = UInt16.ofNat (ch.propagated.length + 1) := by
    rw [← UInt16.toNat_inj]
    simp
  rw [hnext] at hseq hsent
  constructor
  case connected => exact (congrFun hc.connected i).trans h.connected
  case address => exact (hc.address i).trans h.address
  case only =>
    intro j hj ha
    exact h.only j ((congrFun hc.connected j).symm.trans hj) ((hc.address j).symm.trans ha)
  case slotKey => exact (hc.sharedKey i).trans h.slotKey
  case sequence =>
    rw [show (ch.propagate a data).propagated = ch.propagated ++ [data.bytes] from rfl,
      List.length_append]
    exact hseq
  case state => exact h.state
  case clientKey => exact h.clientKey
  case ack => exact h.ack
  case wire =>
    simp only [Channel.propagate]
    rw [hsent, h.wire, List.mapIdx_concat]
    rfl
  case fits =>
    intro g hg
    rcases List.mem_append.mp hg with hg | hg
    · exact h.fits g hg
    · obtain rfl := List.mem_singleton.mp hg
      exact hfit
  case accepted_le => exact h.accepted_le
  case newest_le =>
    have := h.newest_le
    simp only [Channel.propagate, List.length_append, List.length_singleton]
    exact Nat.le_succ_of_le this
  case returned =>
    have htake : (ch.propagated ++ [data.bytes]).take ch.newest = ch.propagated.take ch.newest :=
      List.take_append_of_le_length h.newest_le
    exact htake ▸ h.returned

/-- A datagram of the wire is accepted exactly when its send index is past the newest. -/
theorem deliver_eq (h : InOrder i a k ch) {n : Nat} {data : List UInt8}
    (hn : ch.propagated[n]? = some data) (source : Address) {p_size : UInt32}
    (hp : data.length ≤ p_size.toNat) (received now : Int)
    (hlo : n + 1 ≤ ch.newest + 32767) (hhi : ch.newest ≤ n + 1 + 32767) :
    ch.deliver n (datagramAt C k n data) source p_size received now =
      if ch.newest < n + 1 then
        { ch with
          client := { touched ch.client source received with ack := UInt16.ofNat (n + 1) }
          accepted := ch.accepted ++ [n + 1]
          returned := ch.returned ++ [data] }
      else { ch with client := touched ch.client source received } := by
  have hfit := h.fits data (List.mem_of_getElem? hn)
  have hl := listen_data h.state source (UInt16.ofNat (n + 1)) hfit hp received now
  have hahead : sequenceGreaterThan (UInt16.ofNat (n + 1)) ch.client.ack = true ↔
      ch.newest < n + 1 := by
    rw [sequenceGreaterThan_iff, h.ack, UInt16.toNat_ofNat', UInt16.toNat_ofNat']
    exact Serial.ahead_mod_iff (m := 32768) (by omega) (by omega)
  rw [h.clientKey] at hl
  rw [Channel.deliver, datagramAt, hl]
  by_cases hnew : ch.newest < n + 1
  · rw [if_pos hnew, if_pos (hahead.mpr hnew)]
  · rw [if_neg hnew, if_neg (mt hahead.mp hnew)]

theorem deliver_inOrder (h : InOrder i a k ch) {n : Nat} {data : List UInt8}
    (hn : ch.propagated[n]? = some data) (source : Address) {p_size : UInt32}
    (hp : data.length ≤ p_size.toNat) (received now : Int)
    (hlo : n + 1 ≤ ch.newest + 32767) (hhi : ch.newest ≤ n + 1 + 32767) :
    InOrder i a k (ch.deliver n (datagramAt C k n data) source p_size received now) := by
  rw [deliver_eq h hn source hp received now hlo hhi]
  obtain ⟨hlt, hget⟩ := List.getElem?_eq_some_iff.mp hn
  by_cases hnew : ch.newest < n + 1
  · rw [if_pos hnew]
    have hlast : (ch.accepted ++ [n + 1]).getLastD 0 = n + 1 := by simp
    constructor
    case ack => rw [Channel.newest, hlast]
    case accepted_le =>
      intro m hm
      rw [Channel.newest, hlast]
      rcases List.mem_append.mp hm with hm | hm
      · exact Nat.le_of_lt (Nat.lt_of_le_of_lt (h.accepted_le m hm) hnew)
      · exact Nat.le_of_eq (List.mem_singleton.mp hm)
    case newest_le =>
      rw [Channel.newest, hlast]
      exact hlt
    case returned =>
      rw [Channel.newest, hlast]
      simp only
      rw [List.take_add_one, hn]
      have hmono := List.take_sublist_take_left (l := ch.propagated) (show ch.newest ≤ n by omega)
      exact (h.returned.trans hmono).append (List.Sublist.refl _)
    -- the server and the wire are not touched
    case connected => exact h.connected
    case address => exact h.address
    case only => exact h.only
    case slotKey => exact h.slotKey
    case sequence => exact h.sequence
    case state => exact h.state
    case clientKey => exact h.clientKey
    case wire => exact h.wire
    case fits => exact h.fits
  · rw [if_neg hnew]
    exact ⟨h.connected, h.address, h.only, h.slotKey, h.sequence, h.state, h.clientKey, h.ack,
      h.wire, h.fits, h.accepted_le, h.newest_le, h.returned⟩

/-- What a delivery takes from the wire is the datagram of a payload. -/
theorem wire_at (h : InOrder i a k ch) {n : Nat} {d : List UInt8} (hd : ch.wire[n]? = some d) :
    ∃ data, ch.propagated[n]? = some data ∧ d = datagramAt C k n data := by
  rw [h.wire, List.getElem?_mapIdx] at hd
  obtain ⟨data, hn, rfl⟩ := Option.map_eq_some_iff.mp hd
  exact ⟨data, hn, rfl⟩

theorem channel_step_inOrder (hi : i ≠ 0) (h : InOrder i a k ch) {action : ChannelAction}
    (hg : InWindow ch action) {ch' : Channel C} (hs : ch.step a action = some ch') :
    InOrder i a k ch' := by
  cases action with
  | propagate data =>
    cases hs
    exact propagate_inOrder hi h hg
  | deliver n source p_size received now =>
    obtain ⟨d, hd, rfl⟩ := Option.map_eq_some_iff.mp hs
    obtain ⟨data, hn, rfl⟩ := wire_at h hd
    exact deliver_inOrder h hn source (hg.1 data hn) received now hg.2.1 hg.2.2

theorem newest_lt_iff (h : InOrder i a k ch) (n : Nat) :
    ch.newest < n + 1 ↔ ∀ m ∈ ch.accepted, m < n + 1 := by
  constructor
  · exact fun hlt m hm => Nat.lt_of_le_of_lt (h.accepted_le m hm) hlt
  · intro hall
    rw [Channel.newest]
    cases hl : ch.accepted.getLast? with
    | none => simp [List.getLastD_eq_getLast?, hl]
    | some m => simpa [List.getLastD_eq_getLast?, hl] using hall m (List.mem_of_getLast? hl)

/-- In a first session the client accepts a datagram exactly when its send index is larger
than all it accepted before, and returns payloads in the order they were propagated in. -/
theorem delivered_in_order {s : Server C} {c : Client C} (h : FirstSession s i a c)
    (actions : List ChannelAction)
    (hg : Runs.Guarded (Channel.step a) InWindow { server := s, client := c } actions)
    (hr : Runs.run (Channel.step a) { server := s, client := c } actions = some ch) :
    (∀ (n : Nat) (source : Address) (p_size : UInt32) (received now : Int) (ch' : Channel C),
      InWindow ch (.deliver n source p_size received now) →
      ch.step a (.deliver n source p_size received now) = some ch' →
      (ch'.accepted = ch.accepted ++ [n + 1] ↔ ∀ m ∈ ch.accepted, m < n + 1)) ∧
    ch.returned.Sublist ch.propagated := by
  have hin : InOrder i a c.sharedKey ch := hg.invariant
    (fun _ _ _ hi hw hs => channel_step_inOrder h.slot hi hw hs) h.inOrder hr
  constructor
  · intro n source p_size received now ch' hw hs
    obtain ⟨d, hd, rfl⟩ := Option.map_eq_some_iff.mp hs
    obtain ⟨data, hn, rfl⟩ := wire_at hin hd
    rw [deliver_eq hin hn source (hw.1 data hn) received now hw.2.1 hw.2.2, ← newest_lt_iff hin]
    by_cases hnew : ch.newest < n + 1
    · simp [hnew]
    · simp [hnew]
  · exact hin.returned.trans (List.take_sublist _ _)

/-- A server with one client connected, in slot 1. -/
def sampleServer : Server sample :=
  { Server.create sample with
    connected := Function.update (Server.create sample).connected 1 true
    connections := Function.update (Server.create sample).connections 1
      { clientAddress := sampleAddress 1, sharedKey := sampleShared } }

theorem sample_first_session :
    FirstSession sampleServer 1 (sampleAddress 1)
      { state := .connected, sharedKey := sampleShared } :=
  ⟨by decide, by decide +kernel, by decide +kernel, by decide +kernel, by decide +kernel,
    by decide +kernel, rfl, rfl⟩

def sampleChannel : Channel sample where
  server := sampleServer
  client := { state := .connected, sharedKey := sampleShared }

/-- Two payloads cross on the way, and the first is dropped as old. -/
theorem crossed_delivery :
    ∃ ch, Runs.run (Channel.step (sampleAddress 1)) sampleChannel
        [.propagate ⟨[7], by decide⟩, .propagate ⟨[8, 9], by decide⟩, .deliver 1 {} 16 0 0,
          .deliver 0 {} 16 0 0] = some ch ∧
      ch.returned = [[8, 9]] ∧ ch.returned.Sublist ch.propagated := by
  have hret : (Runs.run (Channel.step (sampleAddress 1)) sampleChannel
      [.propagate ⟨[7], by decide⟩, .propagate ⟨[8, 9], by decide⟩, .deliver 1 {} 16 0 0,
        .deliver 0 {} 16 0 0]).map Channel.returned = some [[8, 9]] := by decide +kernel
  obtain ⟨ch, hrun, hr⟩ := Option.map_eq_some_iff.mp hret
  exact ⟨ch, hrun, hr, (delivered_in_order sample_first_session _ (by decide +kernel) hrun).2⟩

end GameNetwork.Proofs
