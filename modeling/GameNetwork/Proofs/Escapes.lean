import GameNetwork.Proofs.Ideal
import GameNetwork.Proofs.Reacts

namespace GameNetwork.Proofs
open Buffer

variable {C : Crypto} {c : Client C} {source : Address} {d : List UInt8} {b : Buffer}
  {arrival : Arrival} {t : PacketType}

/-- `VerifyPacketCRC` finds its four bytes, and the type byte when they match. -/
def Headed (d : List UInt8) : Prop :=
  d = [] ∨ minimumHeaderSize ≤ d.length ∨
    d.length = 4 ∧ UInt32.ofNat (Bytes.ofBe d) ≠
      CRC32.getCRCTableBased (Bytes.be 4 protocolId.toNat)

/-- Every read of a datagram by the client finds its bytes: those of the header, those of the
key in a challenge it waits for, and the payload that game data in its session claims. -/
structure Withstands (c : Client C) (d : List UInt8) : Prop where
  header : c.state = .disconnected ∨ c.state = .sendingRequest → Headed d
  challenge : c.state = .sendingRequest → crcType d = .ok .challenge →
    challengePacketSize C ≤ d.length
  gameData : c.state = .connected → hmacType C c.sharedKey d = .connectionData →
    connectionDataPacketSize + (gameDataSizeOf d).toNat ≤ d.length

theorem crcType_returns_iff : (∃ t, crcType d = .ok t) ↔ Headed d := by
  unfold crcType Headed minimumHeaderSize
  by_cases hnil : d = []
  · simp [hnil]
  by_cases hshort : d.length < 4
  · have hno : ¬ (4 + 1 ≤ d.length) ∧ ¬ d.length = 4 := by omega
    simp [hnil, hshort, hno]
  by_cases hfour : d.length = 4
  · have htake : d.take 4 = d := List.take_of_length_le (by omega)
    have hdrop : d.drop 4 = [] := List.drop_of_length_le (by omega)
    rw [if_neg hnil, if_neg hshort, htake, hdrop, List.append_nil, if_pos hfour]
    split
    · rename_i hcrc
      exact iff_of_true ⟨_, rfl⟩ (.inr (.inr ⟨hfour, hcrc⟩))
    · rename_i hcrc
      refine iff_of_false (fun ⟨t, ht⟩ => by cases ht) ?_
      rintro (h | h | h)
      · exact hnil h
      · omega
      · exact hcrc h.2
  · have hlong : 4 + 1 ≤ d.length := by omega
    rw [if_neg hnil, if_neg hshort, if_neg hfour]
    refine iff_of_true ?_ (.inr (.inl hlong))
    split <;> exact ⟨_, rfl⟩

/-- What follows the `switch` throws nothing of its own. -/
theorem concluded_returns_iff (r : Client C × Except Fault (Option Listened)) (now : Int) :
    (∃ l, (concluded now r).result = .ok l) ↔ ∃ v, r.2 = .ok v := by
  obtain ⟨c, v⟩ := r
  cases v with
  | error e => exact iff_of_false (fun ⟨l, h⟩ => by cases h) (fun ⟨v, h⟩ => by cases h)
  | ok v =>
    refine iff_of_true ?_ ⟨v, rfl⟩
    cases v with
    | none => exact ⟨_, checkTimeout_result c now⟩
    | some l => exact ⟨l, rfl⟩

/-- For a datagram whose verification returns, the rest is up to its type. -/
theorem withstands_iff (ht : clientType c d = .ok t) :
    Withstands c d ↔
      (c.state = .sendingRequest → t = .challenge → challengePacketSize C ≤ d.length) ∧
      (c.state = .connected → t = .connectionData →
        connectionDataPacketSize + (gameDataSizeOf d).toNat ≤ d.length) := by
  have hcrc (hs : c.state = .disconnected ∨ c.state = .sendingRequest) : crcType d = .ok t := by
    rwa [clientType, if_pos hs] at ht
  have hmac (hs : c.state = .connected) : hmacType C c.sharedKey d = t := by
    rw [clientType, if_neg (by simp [hs])] at ht
    exact Except.ok.inj ht
  constructor
  · intro h
    constructor
    · exact fun hs htype => h.challenge hs (by rw [hcrc (.inr hs), htype])
    · exact fun hs htype => h.gameData hs (by rw [hmac hs, htype])
  · rintro ⟨hchallenge, hdata⟩
    constructor
    · exact fun hs => crcType_returns_iff.mp ⟨t, hcrc hs⟩
    · exact fun hs htype => hchallenge hs (Except.ok.inj ((hcrc (.inr hs)).symm.trans htype))
    · exact fun hs htype => hdata hs ((hmac hs).symm.trans htype)

/-- The `switch` returns from a verified datagram exactly when its reads find their bytes. -/
theorem dispatch_returns_iff (ht : clientType c d = .ok t) (hb : AtBody d b) (p_size : UInt32) :
    (∃ v, (c.dispatch t b p_size).2 = .ok v) ↔ Withstands c d := by
  rw [withstands_iff ht]
  have hsw := dispatch_switched c t p_size hb
  generalize c.dispatch t b p_size = r at hsw ⊢
  cases hsw with
  | ignored hc ha hg =>
    exact iff_of_true ⟨_, rfl⟩ ⟨fun hs h => absurd ⟨h, hs⟩ hc, fun hs h => absurd ⟨h, hs⟩ hg⟩
  | challenge hs hk => exact iff_of_true ⟨_, rfl⟩ ⟨fun _ _ => hk, by simp⟩
  | challenge_short hs hk =>
    exact iff_of_false (fun ⟨v, h⟩ => by cases h) fun h => absurd (h.1 hs rfl) (Nat.not_le.mpr hk)
  | accepted => exact iff_of_true ⟨_, rfl⟩ ⟨by simp, by simp⟩
  | accepted_short hs hl =>
    -- it ends in an HMAC, so it is long enough
    rw [clientType, if_neg (by simp [hs])] at ht
    have hlen := (hmacType_ne_invalid (by rw [Except.ok.inj ht]; simp)).1
    omega
  | data hs hin => exact iff_of_true ⟨_, rfl⟩ ⟨by simp, fun _ _ => hin⟩
  | data_old hs hin => exact iff_of_true ⟨_, rfl⟩ ⟨by simp, fun _ _ => hin⟩
  | data_short hs hin =>
    exact iff_of_false (fun ⟨v, h⟩ => by cases h) fun h => absurd (h.2 hs rfl) (Nat.not_le.mpr hin)
  | dropped hs htype =>
    refine iff_of_true ⟨_, rfl⟩ ?_
    rcases htype with rfl | ⟨rfl, hc⟩
    · simp
    · exact ⟨by simp, fun h => absurd h hc⟩

theorem withstands_touched (source : Address) (received : Int) :
    Withstands (touched c source received) d ↔ Withstands c d :=
  ⟨fun h => ⟨h.header, h.challenge, h.gameData⟩, fun h => ⟨h.header, h.challenge, h.gameData⟩⟩

/-- One call on a datagram that fits. -/
theorem received_returns_iff (c : Client C) (source : Address) (p_size : UInt32)
    (received now : Int) (hd : d.length ≤ receiveSize) :
    (∃ l, (c.listen (some (source, d)) p_size received now).result = .ok l) ↔ Withstands c d := by
  obtain ⟨b, hl, hb⟩ := client_listen_received c source p_size received now hd
  rw [hl]
  cases ht : clientType c d with
  | error e =>
    refine iff_of_false (fun ⟨l, h⟩ => by cases h) fun h => ?_
    unfold clientType at ht
    split at ht
    · rename_i hs
      obtain ⟨t, hok⟩ := crcType_returns_iff.mpr (h.header hs)
      rw [ht] at hok
      cases hok
    · cases ht
  | ok t =>
    by_cases hne : t = .invalidPacket
    · subst hne
      simp only [ne_eq, not_true_eq_false, if_false]
      exact iff_of_true ⟨_, checkTimeout_result _ now⟩ ((withstands_iff ht).mpr (by simp))
    · simp only [ne_eq, hne, not_false_eq_true, if_true]
      rw [concluded_returns_iff, ← withstands_touched source received]
      exact dispatch_returns_iff (c := touched c source received) ht (hb t ht hne) p_size

/-- A client's `Listen` returns exactly when nothing arrives that fits its buffer, or what
arrives has all the bytes it reads. -/
theorem client_listen_returns_iff (c : Client C) (arrival : Arrival) (p_size : UInt32)
    (received now : Int) :
    (∃ l, (c.listen arrival p_size received now).result = .ok l) ↔
      ∀ source d, arrival = some (source, d) → d.length ≤ receiveSize → Withstands c d := by
  rcases receive_cases arrival with hf | ⟨source, d, rfl, hd⟩
  · rw [client_listen_failed hf]
    refine iff_of_true ⟨_, checkTimeout_result c now⟩ ?_
    intro source d ha hd
    have := hf source d ha
    omega
  rw [received_returns_iff c source p_size received now hd]
  constructor
  · rintro h source' d' ha -
    cases ha
    exact h
  · intro h
    exact h source d rfl hd

/-- A single byte is enough. -/
theorem client_listen_escapes :
    ¬ ∀ (c : Client sample) (source : Address) (d : List UInt8) (p_size : UInt32)
      (received now : Int), d.length ≤ receiveSize →
        ∃ l, (c.listen (some (source, d)) p_size received now).result = .ok l := by
  intro h
  obtain ⟨l, hl⟩ := h {} (sampleAddress 9) [0] 0 0 0 (by decide)
  cases hl

end GameNetwork.Proofs
