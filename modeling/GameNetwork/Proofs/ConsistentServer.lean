import GameNetwork.Proofs.Consistent
import GameNetwork.Proofs.Sessions

namespace GameNetwork.Proofs

variable {C : Crypto} {ι : Type} {hosts : Hosts ι} {sys : System C ι} {s t : Server C}
  {sent : List Outgoing} {sender : Address} {challenge : ChallengeInfo C} {y seed : C.Seed}
  {arrival : Arrival} {p_size : UInt32} {j : Slot}

/-- A `DISCONNECT` from the client of another slot clears slot 1 while it is taken. -/
def ClearsOther (s : Server C) : ServerAction C → Prop
  | .listen (some (sender, d)) _ _ =>
    d.length ≤ receiveSize ∧ s.findExistingConnectionIndex sender > 1 ∧
      hmacType C (s.connections (slot (s.findExistingConnectionIndex sender))).sharedKey d =
        .disconnect ∧
      s.connected 1 = true
  | _ => False

instance (s : Server C) : (action : ServerAction C) → Decidable (ClearsOther s action)
  | .listen (some (_, _)) _ _ => inferInstanceAs (Decidable (_ ∧ _))
  | .listen none _ _ | .propagateGameData _ | .switchToLobby | .switchToGame => .isFalse id

theorem propagateSlots_harmless (data : GameData) (is : List Slot) (s : Server C) :
    Harmless C (Server.propagateSlots data is s).sent := by
  induction is generalizing s with
  | nil => exact Harmless.nil
  | cons i is ih =>
    rw [Server.propagateSlots]
    split
    · dsimp only
      split
      · rename_i bytes hw
        intro out ho
        rcases List.mem_cons.mp ho with rfl | ho
        · exact ⟨.data _ _ data.bytes, written_data C hw, .inr rfl⟩
        · exact ih _ out ho
      · exact Harmless.nil
    · exact ih s

section
variable {i : Slot} {a : Address} {k : ShortSharedKey} (h : HasSlot s i a k)
include h

/-- An accept takes a free slot. -/
theorem HasSlot.accepted (hj : s.findFreeConnectionIndex = j.val) :
    HasSlot (accepted s j) i a k := by
  have hne : i ≠ j := by
    rintro rfl
    have hfree := FirstIndex.passes hj
    rw [h.connected] at hfree
    cases hfree
  constructor
  · simpa [Proofs.accepted, hne] using h.connected
  · simpa [Proofs.accepted, hne] using h.address
  · simpa [Proofs.accepted, hne] using h.sharedKey

theorem HasSlot.dropConnection (hi : i ≠ 1) : HasSlot (dropConnection s) i a k := by
  constructor
  · simpa [Proofs.dropConnection, hi] using h.connected
  · simpa [Proofs.dropConnection, hi] using h.address
  · simpa [Proofs.dropConnection, hi] using h.sharedKey

theorem HasSlot.alike (ht : Alike s t) : HasSlot t i a k := by
  constructor
  · rw [ht.connected]; exact h.connected
  · rw [ht.connections]; exact h.address
  · rw [ht.connections]; exact h.sharedKey

theorem HasSlot.counted (ht : Counted s t) : HasSlot t i a k := by
  constructor
  · rw [ht.connected]; exact h.connected
  · rw [ht.address]; exact h.address
  · rw [ht.sharedKey]; exact h.sharedKey

end

section
variable (hC : Ideal C) (h : Consistent hosts sys)
include h

/-- What arrives at the server is an honest message from its source. -/
theorem Consistent.arrived {d : List UInt8}
    (ha : System.Arrives sys.network hosts.server (some (sender, d))) :
    ∃ m : Message C, d = m.bytes ∧ Honest hosts sys m ∧
      ∃ e ∈ sys.network, e.source = sender ∧ e.bytes = m.bytes := by
  obtain ⟨e, he, hs, rfl, -⟩ := ha
  obtain ⟨m, hm, hon⟩ := h.honest e he
  exact ⟨m, hm, hon, e, he, hs, hm⟩

/-- A call that sends nothing and keeps the pending challenge, if it keeps any. -/
theorem Consistent.silent (hT : Tables t) (hslot : Spares hosts sys t)
    (hchallenge : t.challenged 1 = true → sys.server.challenged 1 = true ∧
      (t.challenges 1).resolved = (sys.server.challenges 1).resolved) :
    Consistent hosts (sys.withServer hosts t []) := by
  apply h.withServer hT hslot
  · intro h1
    obtain ⟨hs1, hres⟩ := hchallenge h1
    rw [hres]
    exact (h.challenge hs1).mono (List.subset_append_left _ _)
  · exact h.apart.keyless Keyless.nil
  · intro out ho
    cases ho

/-- Game data goes out, and the counters of the slots move. -/
theorem Consistent.counted (ht : Counted sys.server t) (hsent : Harmless C sent) :
    Consistent hosts (sys.withServer hosts t sent) := by
  apply h.withServer (ht.tables h.tables)
  · intro i j k _ hs
    exact hs.counted ht
  · intro h1
    rw [ht.challenged] at h1
    rw [ht.challenges]
    exact (h.challenge h1).mono (List.subset_append_left _ _)
  · exact h.apart.keyless hsent.keyless
  · exact hsent.honest

include hC

/-- A challenge is put in its slot and sent with its public key. -/
theorem Consistent.challenged (hr : ∀ a, ¬ Requested sys.network a y)
    (hb : Backed (sys.network ++ System.post hosts.server [⟨sender, (Message.challenge y).bytes⟩])
      challenge.resolved) :
    Consistent hosts (sys.withServer hosts (withChallenge sys.server challenge)
      [⟨sender, (Message.challenge y).bytes⟩]) := by
  apply h.withServer (withChallenge_tables h.tables challenge)
  · intro i j k _ hs
    exact ⟨hs.connected, hs.address, hs.sharedKey⟩
  · intro _
    rw [withChallenge_challenges_one]
    exact hb
  · exact h.apart.challenge hC hr sender
  · intro out ho
    exact ⟨.challenge y, by rw [List.mem_singleton.mp ho], trivial⟩

/-- The free slot goes to the one client that can hold the key of the accept. -/
theorem Consistent.accepts (h1 : sys.server.challenged 1 = true)
    (hj : sys.server.findFreeConnectionIndex = j.val) :
    Consistent hosts (sys.withServer hosts (accepted sys.server j)
      [⟨sender, sealed C (sys.server.challenges 1).resolved.sharedKey (acceptMessage j)⟩]) := by
  obtain ⟨x, y, hx, hy, -, -, -, hkey⟩ := h.challenge h1
  have hmessage : ∀ out ∈ [(⟨sender, sealed C (sys.server.challenges 1).resolved.sharedKey
      (acceptMessage j)⟩ : Outgoing)],
      out.bytes = (Message.accepted (sys.server.challenges 1).resolved.sharedKey j :
        Message C).bytes := by
    intro out ho
    rw [List.mem_singleton.mp ho]
    rfl
  apply h.withServer (accepted_tables h.tables hj)
  · intro i j' k _ hs
    exact hs.accepted hj
  · intro h1
    simp [accepted, dropChallenge] at h1
  · apply h.apart.keyless
    intro out ho
    exact ⟨_, hmessage out ho, by simp [Message.type], by simp [Message.type]⟩
  · intro out ho
    refine ⟨_, hmessage out ho, ?_, ?_⟩
    · exact Known.mono (List.subset_append_left _ _) ⟨_, x, y, hx, hy, hkey⟩
    · intro i hi
      rw [hkey] at hi
      have howner := (h.clients i).owner hC h.apart hx hy hi
      constructor
      · simp [System.withServer, accepted]
      · simpa [System.withServer, accepted, resolved_fields] using howner
      · simp [System.withServer, accepted]

/-- A `DISCONNECT` that verifies was sent by the only holder of the key. -/
theorem Consistent.disconnects {d : List UInt8}
    (ha : System.Arrives sys.network hosts.server (some (sender, d)))
    (hd : d.length ≤ receiveSize)
    (ht : classify sys.server sender d = .ok (some .disconnect))
    (hc : sys.server.findExistingConnectionIndex sender > 0)
    (hgood : ¬ ClearsOther sys.server (.listen (some (sender, d)) seed p_size)) :
    Consistent hosts (sys.withServer hosts (dropConnection sys.server) []) := by
  obtain ⟨m, rfl, hm, -⟩ := h.arrived ha
  obtain ⟨k, rfl⟩ := Message.eq_disconnect (Message.type_of_server ht (by simp))
  rw [classify_connected hc] at ht
  have ht := Option.some.inj (Except.ok.inj ht)
  have hk := hC.sealed_key ht (by simp)
  apply h.silent (dropConnection_tables h.tables)
  · intro i j k' hi hs
    apply hs.dropConnection
    rintro rfl
    -- the holder of slot 1 is not the sender, so another slot was meant
    refine hgood ⟨hd, ?_, ht, hs.connected⟩
    by_contra hle
    have hone : sys.server.findExistingConnectionIndex sender = 1 := by omega
    rw [hone, slot_one, hs.sharedKey] at hk
    exact hm.2 i (hk ▸ hi)
  · intro h1
    exact ⟨h1, rfl⟩

theorem Consistent.heard (ha : System.Arrives sys.network hosts.server arrival)
    (hf : System.Fresh sys.network (some seed) sent)
    (hgood : ¬ ClearsOther sys.server (.listen arrival seed p_size))
    (hh : Heard sys.server seed arrival t sent) :
    Consistent hosts (sys.withServer hosts t sent) := by
  have hT := h.tables
  cases hh with
  | quiet hq =>
    have hq := hq.alike
    apply h.silent (hq.tables hT)
    · intro i j k _ hs
      exact hs.alike hq
    · intro h1
      rw [hq.challenged] at h1
      exact ⟨h1, hq.resolved⟩
  | challenge hd ht hl hk hc =>
    obtain ⟨m, rfl, -, e, he, hs, hm⟩ := h.arrived ha
    obtain ⟨x, rfl⟩ := Message.eq_request (Message.type_of_server ht (by simp))
    have hkey : keyOf (Message.request x).bytes = C.publicKey x := keyOf_checked _ _
    have hR : 5 + C.roundedPublicKeySize < 2 ^ 31 := by rw [receiveSize] at hd; omega
    obtain ⟨hr, -⟩ := fresh_unsent hR hf (.inr rfl)
    obtain ⟨e', he', -, hb⟩ := mem_append_post sys.network hosts.server
      (List.mem_singleton.mpr rfl : (⟨_, (Message.challenge seed).bytes⟩ : Outgoing) ∈ [_])
    rw [hkey]
    apply h.challenged hC hr
    exact ⟨x, seed, ⟨e, List.mem_append_left _ he, hs, hm⟩, ⟨e', he', hb⟩, rfl, rfl, rfl, rfl⟩
  | rechallenge hd ht hl hk hc hq =>
    have hq := hq.alike
    obtain ⟨x, y, hx, hy, hcx, hcy, hpy, hkey⟩ := h.challenge (hT.challenged_at hc).1
    rw [← hq.resolved] at hx hcx hcy hpy
    have hpub : (sys.server.challenges 1).serverPublicKey = C.publicKey y := by
      rw [← hq.serverPublicKey, ← hcy, (resolved_fields _).2.2.1]
    simp only [resolved_fields] at hx hcx hcy hpy
    rw [hpub]
    apply h.challenged hC
    · intro a hr
      exact h.apart.roles a y hr hy
    · -- the key job runs again, on the same two keys
      apply Backed.mono (List.subset_append_left _ _)
      refine ⟨x, y, hx, hy, hcx, hcy, hpy, ?_⟩
      change C.sessionKey _ _ = _
      rw [hcx, hpy]
  | accept hd ht hl hc hj => exact h.accepts hC (hT.challenged_at hc).1 hj
  | disconnect hd ht hc => exact h.disconnects hC ha hd ht hc hgood
  | withdraw =>
    apply h.silent (dropChallenge_tables hT)
    · intro i j k _ hs
      exact ⟨hs.connected, hs.address, hs.sharedKey⟩
    · intro h1
      simp [dropChallenge] at h1

theorem Consistent.server {action : ServerAction C}
    (ha : System.Arrives sys.network hosts.server action.arrival)
    (hact : sys.server.act action = some (t, sent))
    (hf : System.Fresh sys.network action.seed sent) (hgood : ¬ ClearsOther sys.server action) :
    Consistent hosts (sys.withServer hosts t sent) := by
  have hT := h.tables
  have hswitch : Spares hosts sys sys.server.switchToLobby ∧
      Spares hosts sys sys.server.switchToGame := by
    constructor <;> intro i j k _ hs <;> exact ⟨hs.connected, hs.address, hs.sharedKey⟩
  cases action with
  | listen arrival seed p_size =>
    obtain ⟨rfl, rfl⟩ := Outcome.leaves_some hact
    exact h.heard hC ha hf hgood (listen_heard hT arrival seed p_size)
  | propagateGameData data =>
    obtain ⟨rfl, rfl⟩ := Outcome.leaves_some hact
    exact h.counted (propagateSlots_counted data _ _) (propagateSlots_harmless data _ _)
  | switchToLobby =>
    cases hact
    exact h.silent ⟨hT.own_connected, hT.own_address, hT.challenged_one⟩ hswitch.1
      fun h1 => ⟨h1, rfl⟩
  | switchToGame =>
    cases hact
    exact h.silent ⟨hT.own_connected, hT.own_address, hT.challenged_one⟩ hswitch.2
      fun h1 => ⟨h1, rfl⟩

end

end GameNetwork.Proofs
