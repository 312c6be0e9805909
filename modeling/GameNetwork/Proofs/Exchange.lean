import GameNetwork.Proofs.Handshake
import GameNetwork.Proofs.Message
import GameNetwork.System

namespace GameNetwork.Proofs

variable {C : Crypto} {network network' : List Datagram} {a b : Address} {x y : C.Seed}
  {k : ShortSharedKey} {c t : Client C} {sent : List Outgoing}

/-- A request with the public key of the seed was sent from the address. -/
def Requested (network : List Datagram) (a : Address) (x : C.Seed) : Prop :=
  ∃ d ∈ network, d.source = a ∧ d.bytes = (Message.request x).bytes

/-- A challenge with the public key of the seed was sent. -/
def Challenged (network : List Datagram) (y : C.Seed) : Prop :=
  ∃ d ∈ network, d.bytes = (Message.challenge y).bytes

/-- The key belongs to a request and a challenge that were sent. -/
def Known (C : Crypto) (network : List Datagram) (k : ShortSharedKey) : Prop :=
  ∃ (a : Address) (x y : C.Seed), Requested network a x ∧ Challenged network y ∧
    k = C.sessionKey (C.publicKey x) (C.privateKey y)

/-- Every seed is one party's, and the server's seeds are no client's. -/
structure Apart (C : Crypto) (network : List Datagram) : Prop where
  requester : ∀ (a b : Address) (x : C.Seed),
    Requested network a x → Requested network b x → a = b
  roles : ∀ (a : Address) (x : C.Seed), Requested network a x → ¬ Challenged network x

/-- The client has the session key, or a challenge can still give it the key. -/
def Holds (c : Client C) (k : ShortSharedKey) : Prop :=
  k ≠ 0 ∧ (c.sharedKey = k ∨
    c.state = .sendingRequest ∧ ∃ y, k = C.sessionKey (C.publicKey y) c.privateKey)

/-- What the client at an address has, it got through the network. -/
structure ClientFacts (network : List Datagram) (a : Address) (c : Client C) : Prop where
  idle : c.state = .disconnected → c.sharedKey = 0
  requesting : c.state = .sendingRequest →
    ∃ x, c.privateKey = C.privateKey x ∧ Requested network a x
  sharedKey : c.sharedKey ≠ 0 → ∃ x y, c.privateKey = C.privateKey x ∧ Requested network a x ∧
    Challenged network y ∧ c.sharedKey = C.sessionKey (C.publicKey y) (C.privateKey x)
  connected : c.state = .connected → ∃ j : Slot, c.index = j.val ∧
    ∃ d ∈ network, d.bytes = (Message.accepted (C := C) c.sharedKey j).bytes

/-- The challenge answers a request from its address, and its public key was sent. -/
def Backed (network : List Datagram) (challenge : ChallengeInfo C) : Prop :=
  ∃ x y, Requested network challenge.clientAddress x ∧ Challenged network y ∧
    challenge.clientPublicKey = C.publicKey x ∧ challenge.serverPublicKey = C.publicKey y ∧
    challenge.serverPrivateKey = C.privateKey y ∧
    challenge.sharedKey = C.sessionKey (C.publicKey x) (C.privateKey y)

section
variable (h : network ⊆ network')
include h

theorem Requested.mono (hx : Requested network a x) : Requested network' a x := by
  obtain ⟨d, hd, hs⟩ := hx
  exact ⟨d, h hd, hs⟩

theorem Challenged.mono (hy : Challenged network y) : Challenged network' y := by
  obtain ⟨d, hd, hs⟩ := hy
  exact ⟨d, h hd, hs⟩

theorem Known.mono (hk : Known C network k) : Known C network' k := by
  obtain ⟨a, x, y, hx, hy, he⟩ := hk
  exact ⟨a, x, y, hx.mono h, hy.mono h, he⟩

theorem ClientFacts.mono (hc : ClientFacts network a c) : ClientFacts network' a c where
  idle := hc.idle
  requesting hs := by
    obtain ⟨x, hp, hx⟩ := hc.requesting hs
    exact ⟨x, hp, hx.mono h⟩
  sharedKey hs := by
    obtain ⟨x, y, hp, hx, hy, he⟩ := hc.sharedKey hs
    exact ⟨x, y, hp, hx.mono h, hy.mono h, he⟩
  connected hs := by
    obtain ⟨j, hj, d, hd, he⟩ := hc.connected hs
    exact ⟨j, hj, d, h hd, he⟩

theorem Backed.mono {challenge : ChallengeInfo C} (hb : Backed network challenge) :
    Backed network' challenge := by
  obtain ⟨x, y, hx, hy, he⟩ := hb
  exact ⟨x, y, hx.mono h, hy.mono h, he⟩

end

theorem mem_post {d : Datagram} (h : d ∈ System.post a sent) :
    d.source = a ∧ ∃ out ∈ sent, d.bytes = out.bytes := by
  obtain ⟨out, ho, rfl⟩ := List.mem_map.mp h
  exact ⟨rfl, out, ho, rfl⟩

theorem requested_append (h : Requested (network ++ System.post b sent) a x) :
    Requested network a x ∨ b = a ∧ ∃ out ∈ sent, out.bytes = (Message.request x).bytes := by
  obtain ⟨d, hd, hs, he⟩ := h
  rcases List.mem_append.mp hd with hd | hd
  · exact .inl ⟨d, hd, hs, he⟩
  · obtain ⟨hb, out, ho, ho'⟩ := mem_post hd
    exact .inr ⟨hb.symm.trans hs, out, ho, ho'.symm.trans he⟩

theorem challenged_append (h : Challenged (network ++ System.post b sent) y) :
    Challenged network y ∨ ∃ out ∈ sent, out.bytes = (Message.challenge y).bytes := by
  obtain ⟨d, hd, he⟩ := h
  rcases List.mem_append.mp hd with hd | hd
  · exact .inl ⟨d, hd, he⟩
  · obtain ⟨-, out, ho, ho'⟩ := mem_post hd
    exact .inr ⟨out, ho, ho'.symm.trans he⟩

theorem mem_append_post (network : List Datagram) (a : Address) {out : Outgoing}
    (h : out ∈ sent) : ∃ d ∈ network ++ System.post a sent, d.source = a ∧ d.bytes = out.bytes :=
  ⟨_, List.mem_append_right _ (List.mem_map.mpr ⟨out, h, rfl⟩), rfl, rfl⟩

/-- No public keys are among what is sent. -/
def Keyless (C : Crypto) (sent : List Outgoing) : Prop :=
  ∀ out ∈ sent, ∃ m : Message C, out.bytes = m.bytes ∧ m.type ≠ .connectionRequest ∧
    m.type ≠ .challenge

theorem Keyless.nil : Keyless C [] := fun _ h => by cases h

theorem Keyless.requested (h : Keyless C sent)
    (hx : Requested (network ++ System.post b sent) a x) : Requested network a x := by
  rcases requested_append hx with hx | ⟨-, out, ho, he⟩
  · exact hx
  · obtain ⟨m, hm, hr, -⟩ := h out ho
    exact absurd (Message.type_eq (hm.symm.trans he)) hr

theorem Keyless.challenged (h : Keyless C sent)
    (hy : Challenged (network ++ System.post b sent) y) : Challenged network y := by
  rcases challenged_append hy with hy | ⟨out, ho, he⟩
  · exact hy
  · obtain ⟨m, hm, -, hc⟩ := h out ho
    exact absurd (Message.type_eq (hm.symm.trans he)) hc

theorem Apart.keyless (hA : Apart C network) (h : Keyless C sent) :
    Apart C (network ++ System.post b sent) where
  requester _ _ _ hx hx' := hA.requester _ _ _ (h.requested hx) (h.requested hx')
  roles _ _ hx hy := hA.roles _ _ (h.requested hx) (h.challenged hy)

/-- The public key of a fresh seed is neither in a request nor in a challenge. -/
theorem fresh_unsent (hR : 5 + C.roundedPublicKeySize < 2 ^ 31) {out : Outgoing}
    (hf : System.Fresh network (some x) [out])
    (ho : out.bytes = (Message.request x).bytes ∨ out.bytes = (Message.challenge x).bytes) :
    (∀ a, ¬ Requested network a x) ∧ ¬ Challenged network x := by
  have hreq : written (ConnectionRequestPacket.write { clientPublicKey := C.publicKey x }) =
      .ok (Message.request x).bytes := written_connectionRequest hR _
  have hch : written (ChallengePacket.write { serverPublicKey := C.publicKey x }) =
      .ok (Message.challenge x).bytes := written_challenge hR _
  have hnot := hf x rfl ⟨out, by simp, by
    rcases ho with ho | ho
    · exact .inl (by rw [ho, hreq])
    · exact .inr (by rw [ho, hch])⟩
  refine ⟨fun a ⟨d, hd, _, he⟩ => hnot d hd (.inl ?_), fun ⟨d, hd, he⟩ => hnot d hd (.inr ?_)⟩
  · rw [he, hreq]
  · rw [he, hch]

section
variable (hC : Ideal C)
include hC

theorem Apart.request (hA : Apart C network) (hr : ∀ a, ¬ Requested network a x)
    (hc : ¬ Challenged network x) (destination : Address) :
    Apart C (network ++ System.post b [⟨destination, (Message.request x).bytes⟩]) := by
  have hreq : ∀ a z, Requested (network ++ System.post b
      [⟨destination, (Message.request x).bytes⟩]) a z → Requested network a z ∨ b = a ∧ z = x := by
    intro a z hz
    rcases requested_append hz with hz | ⟨hb, out, ho, he⟩
    · exact .inl hz
    · rw [List.mem_singleton.mp ho] at he
      exact .inr ⟨hb, hC.request_injective he.symm⟩
  have hch : ∀ z : C.Seed, Challenged (network ++ System.post b
      [⟨destination, (Message.request x).bytes⟩]) z → Challenged network z := by
    intro z hz
    rcases challenged_append hz with hz | ⟨out, ho, he⟩
    · exact hz
    · rw [List.mem_singleton.mp ho] at he
      exact absurd he Message.request_ne_challenge
  refine ⟨fun a a' z hz hz' => ?_, fun a z hz hy => ?_⟩
  · rcases hreq a z hz with h | ⟨rfl, rfl⟩ <;> rcases hreq a' _ hz' with h' | ⟨rfl, h'⟩
    · exact hA.requester _ _ _ h h'
    · exact absurd (h' ▸ h) (hr a)
    · exact absurd h' (hr a')
    · rfl
  · rcases hreq a z hz with h | ⟨-, rfl⟩
    · exact hA.roles _ _ h (hch z hy)
    · exact hc (hch _ hy)

theorem Apart.challenge (hA : Apart C network) (hr : ∀ a, ¬ Requested network a y)
    (destination : Address) :
    Apart C (network ++ System.post b [⟨destination, (Message.challenge y).bytes⟩]) := by
  have hreq : ∀ a (z : C.Seed), Requested (network ++ System.post b
      [⟨destination, (Message.challenge y).bytes⟩]) a z → Requested network a z := by
    intro a z hz
    rcases requested_append hz with hz | ⟨-, out, ho, he⟩
    · exact hz
    · rw [List.mem_singleton.mp ho] at he
      exact absurd he.symm Message.request_ne_challenge
  refine ⟨fun a a' z hz hz' => hA.requester _ _ _ (hreq a z hz) (hreq a' z hz'),
    fun a z hz hy => ?_⟩
  rcases challenged_append hy with hy | ⟨out, ho, he⟩
  · exact hA.roles _ _ (hreq a z hz) hy
  · rw [List.mem_singleton.mp ho] at he
    obtain rfl := hC.challenge_injective he
    exact hr a (hreq a _ hz)

/-- The holder of a key is the client that requested it. -/
theorem ClientFacts.owner (hc : ClientFacts network b c) (hA : Apart C network)
    (hx : Requested network a x) (hy : Challenged network y)
    (h : Holds c (C.sessionKey (C.publicKey x) (C.privateKey y))) : a = b := by
  have hown : ∃ x' y', Requested network b x' ∧ C.sessionKey (C.publicKey x) (C.privateKey y) =
      C.sessionKey (C.publicKey y') (C.privateKey x') := by
    rcases h with ⟨hne, hk | ⟨hs, y', hk⟩⟩
    · obtain ⟨x', y', -, hx', -, he⟩ := hc.sharedKey (by rw [hk]; exact hne)
      exact ⟨x', y', hx', hk.symm.trans he⟩
    · obtain ⟨x', hp, hx'⟩ := hc.requesting hs
      exact ⟨x', y', hx', by rw [← hp]; exact hk⟩
  obtain ⟨x', y', hx', he⟩ := hown
  rcases hC.session_key_inj _ _ _ _ he with ⟨-, rfl⟩ | ⟨rfl, -⟩
  · exact absurd hy (hA.roles _ _ hx')
  · exact hA.requester _ _ _ hx hx'

/-- Two clients do not hold the key that one of them has computed. -/
theorem ClientFacts.same (hc : ClientFacts network a c) (ht : ClientFacts network b t)
    (hA : Apart C network) (h : Holds t c.sharedKey) : a = b := by
  obtain ⟨x, y, -, hx, hy, he⟩ := hc.sharedKey h.1
  rw [he, ← hC.commutes.sessionKey] at h
  exact ht.owner hC hA hx hy h

theorem ClientFacts.known (hc : ClientFacts network a c) :
    c.sharedKey = 0 ∨ Known C network c.sharedKey := by
  by_cases h : c.sharedKey = 0
  · exact .inl h
  · obtain ⟨x, y, -, hx, hy, he⟩ := hc.sharedKey h
    exact .inr ⟨a, x, y, hx, hy, by rw [he, hC.commutes.sessionKey]⟩

/-- A client with a new seed holds no key that is in use. -/
theorem not_holds_requesting (hr : ∀ a, ¬ Requested network a x) (hc : ¬ Challenged network x)
    (h0 : c.sharedKey = 0) (hk : Known C network k) : ¬ Holds (requesting c x) k := by
  rintro ⟨hne, he | ⟨-, y', he⟩⟩
  · exact hne (he.symm.trans h0)
  · obtain ⟨a, x', y, hx', hy, rfl⟩ := hk
    rcases hC.session_key_inj _ _ _ _ he with ⟨-, rfl⟩ | ⟨rfl, -⟩
    · exact hc hy
    · exact hr a hx'

end

end GameNetwork.Proofs
