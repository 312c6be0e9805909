import GameNetwork.Proofs.Exchange
import GameNetwork.Proofs.Room
import GameNetwork.Proofs.Steps

namespace GameNetwork.Proofs

variable {C : Crypto} {ι : Type} {hosts : Hosts ι} {sys sys' : System C ι}
  {k : ShortSharedKey} {s t : Server C} {sent : List Outgoing}

/-- The slot is taken by the address, with the key. -/
structure HasSlot (s : Server C) (j : Slot) (a : Address) (k : ShortSharedKey) : Prop where
  connected : s.connected j = true
  address : (s.connections j).clientAddress = a
  sharedKey : (s.connections j).sharedKey = k

/-- An accept names the slot of everybody who holds its key, and nobody holds a key that a
`DISCONNECT` was sealed with. -/
def Honest (hosts : Hosts ι) (sys : System C ι) : Message C → Prop
  | .accepted k j => Known C sys.network k ∧
      ∀ i, Holds (sys.clients i) k → HasSlot sys.server j (hosts.client i) k
  | .disconnect k => (k = 0 ∨ Known C sys.network k) ∧ ∀ i, ¬ Holds (sys.clients i) k
  | _ => True

/-- What the calls on all parties keep true. -/
structure Consistent (hosts : Hosts ι) (sys : System C ι) : Prop where
  tables : Tables sys.server
  honest : ∀ d ∈ sys.network, ∃ m : Message C, d.bytes = m.bytes ∧ Honest hosts sys m
  apart : Apart C sys.network
  clients : ∀ i, ClientFacts sys.network (hosts.client i) (sys.clients i)
  challenge : sys.server.challenged 1 = true →
    Backed sys.network (sys.server.challenges 1).resolved

theorem Consistent.start (hosts : Hosts ι) : Consistent hosts (System.start C ι) where
  tables := Tables.create C
  honest d hd := by cases hd
  apart := by
    constructor
    · rintro a b x ⟨d, hd, -⟩
      cases hd
    · rintro a x ⟨d, hd, -⟩
      cases hd
  clients i := ⟨fun _ => rfl, fun h => (by cases h), fun h => absurd rfl h, fun h => (by cases h)⟩
  challenge h := by simp [System.start, Server.create] at h

/-- Keys that fewer clients hold and slots that stay keep messages honest. -/
theorem Honest.mono {m : Message C} (hm : Honest hosts sys m)
    (hnetwork : sys.network ⊆ sys'.network)
    (hholds : ∀ i k, Known C sys.network k → Holds (sys'.clients i) k → Holds (sys.clients i) k)
    (hslot : ∀ i j k, Holds (sys.clients i) k → HasSlot sys.server j (hosts.client i) k →
      HasSlot sys'.server j (hosts.client i) k) : Honest hosts sys' m := by
  cases m with
  | accepted k j =>
    obtain ⟨hk, hall⟩ := hm
    refine ⟨hk.mono hnetwork, fun i hi => ?_⟩
    have hi := hholds i k hk hi
    exact hslot i j k hi (hall i hi)
  | disconnect k =>
    obtain ⟨hk, hnone⟩ := hm
    refine ⟨hk.imp id (Known.mono hnetwork), fun i hi => ?_⟩
    rcases hk with rfl | hk
    · exact hi.1 rfl
    · exact hnone i (hholds i k hk hi)
  | request | challenge | response | data => trivial

theorem append_honest {network : List Datagram} {a : Address}
    (hold : ∀ d ∈ network, ∃ m : Message C, d.bytes = m.bytes ∧ Honest hosts sys m)
    (hsent : ∀ out ∈ sent, ∃ m : Message C, out.bytes = m.bytes ∧ Honest hosts sys m) :
    ∀ d ∈ network ++ System.post a sent,
      ∃ m : Message C, d.bytes = m.bytes ∧ Honest hosts sys m := by
  intro d hd
  rcases List.mem_append.mp hd with hd | hd
  · exact hold d hd
  · obtain ⟨-, out, ho, he⟩ := mem_post hd
    rw [he]
    exact hsent out ho

/-- The server keeps every slot whose key its client holds. -/
def Spares (hosts : Hosts ι) (sys : System C ι) (t : Server C) : Prop :=
  ∀ i j k, Holds (sys.clients i) k → HasSlot sys.server j (hosts.client i) k →
    HasSlot t j (hosts.client i) k

/-- A call on the server that spares the slots of the clients. -/
theorem Consistent.withServer (h : Consistent hosts sys) (hT : Tables t)
    (hslot : Spares hosts sys t)
    (hchallenge : t.challenged 1 = true →
      Backed (sys.withServer hosts t sent).network (t.challenges 1).resolved)
    (hapart : Apart C (sys.withServer hosts t sent).network)
    (hsent : ∀ out ∈ sent, ∃ m : Message C, out.bytes = m.bytes ∧
      Honest hosts (sys.withServer hosts t sent) m) :
    Consistent hosts (sys.withServer hosts t sent) where
  tables := hT
  honest := append_honest (fun d hd => by
    obtain ⟨m, he, hm⟩ := h.honest d hd
    exact ⟨m, he, hm.mono (List.subset_append_left _ _) (fun _ _ _ hi => hi) hslot⟩) hsent
  apart := hapart
  clients i := (h.clients i).mono (List.subset_append_left _ _)
  challenge := hchallenge

/-- The fields of a client its session depends on. -/
structure Kin (c c' : Client C) : Prop where
  state : c'.state = c.state
  sharedKey : c'.sharedKey = c.sharedKey
  privateKey : c'.privateKey = c.privateKey
  index : c'.index = c.index

theorem Kin.holds {c c' : Client C} (h : Kin c c') (hk : Holds c' k) : Holds c k := by
  unfold Holds at hk ⊢
  rwa [h.state, h.sharedKey, h.privateKey] at hk

theorem Kin.facts {c c' : Client C} {network : List Datagram} {a : Address} (h : Kin c c')
    (hc : ClientFacts network a c) : ClientFacts network a c' := by
  refine ⟨?_, ?_, ?_, ?_⟩
  · rw [h.state, h.sharedKey]; exact hc.idle
  · rw [h.state, h.privateKey]; exact hc.requesting
  · rw [h.sharedKey, h.privateKey]; exact hc.sharedKey
  · rw [h.state, h.sharedKey, h.index]; exact hc.connected

/-- Sealed responses and game data are always honest. -/
def Harmless (C : Crypto) (sent : List Outgoing) : Prop :=
  ∀ out ∈ sent, ∃ m : Message C, out.bytes = m.bytes ∧
    (m.type = .challengeResponse ∨ m.type = .connectionData)

theorem Harmless.nil : Harmless C [] := fun _ h => by cases h

theorem Harmless.keyless (h : Harmless C sent) : Keyless C sent := by
  intro out ho
  obtain ⟨m, he, hm⟩ := h out ho
  exact ⟨m, he, by rcases hm with hm | hm <;> simp [hm], by rcases hm with hm | hm <;> simp [hm]⟩

theorem Harmless.honest (h : Harmless C sent) :
    ∀ out ∈ sent, ∃ m : Message C, out.bytes = m.bytes ∧ Honest hosts sys m := by
  intro out ho
  obtain ⟨m, he, hm⟩ := h out ho
  refine ⟨m, he, ?_⟩
  cases m <;> first | trivial | (rcases hm with hm | hm <;> cases hm)

section
variable [DecidableEq ι] {i : ι} {c : Client C}

/-- A call on a client that gives it no key it did not hold. -/
theorem Consistent.withClient (h : Consistent hosts sys)
    (hholds : ∀ k, Known C sys.network k → Holds c k → Holds (sys.clients i) k)
    (hfacts : ClientFacts (sys.withClient hosts i c sent).network (hosts.client i) c)
    (hapart : Apart C (sys.withClient hosts i c sent).network)
    (hsent : ∀ out ∈ sent, ∃ m : Message C, out.bytes = m.bytes ∧
      Honest hosts (sys.withClient hosts i c sent) m) :
    Consistent hosts (sys.withClient hosts i c sent) where
  tables := h.tables
  honest := append_honest (fun d hd => by
    obtain ⟨m, he, hm⟩ := h.honest d hd
    refine ⟨m, he, hm.mono (List.subset_append_left _ _) (fun i' k hk hi' => ?_)
      (fun _ _ _ _ hs => hs)⟩
    by_cases hii : i' = i
    · subst hii
      exact hholds k hk (by simpa [System.withClient] using hi')
    · simpa [System.withClient, hii] using hi') hsent
  apart := hapart
  clients i' := by
    by_cases hii : i' = i
    · subst hii
      simpa [System.withClient] using hfacts
    · simpa [System.withClient, hii] using (h.clients i').mono (List.subset_append_left _ _)
  challenge h1 := (h.challenge h1).mono (List.subset_append_left _ _)

/-- A call that changes nothing the session depends on. -/
theorem Consistent.kin (h : Consistent hosts sys) (hc : Kin (sys.clients i) c)
    (hsent : Harmless C sent) : Consistent hosts (sys.withClient hosts i c sent) :=
  h.withClient (fun _ _ hk => hc.holds hk)
    ((hc.facts (h.clients i)).mono (List.subset_append_left _ _))
    (h.apart.keyless hsent.keyless) hsent.honest

/-- A call that only hears something. -/
theorem Consistent.receives (h : Consistent hosts sys)
    (hholds : ∀ k, Known C sys.network k → Holds c k → Holds (sys.clients i) k)
    (hfacts : ClientFacts sys.network (hosts.client i) c) :
    Consistent hosts (sys.withClient hosts i c []) := by
  apply h.withClient hholds
  · exact hfacts.mono (List.subset_append_left _ _)
  · exact h.apart.keyless Keyless.nil
  · intro out ho
    cases ho

/-- A client that ends its session, with or without a `DISCONNECT`. -/
theorem Consistent.disconnected (h : Consistent hosts sys) (hC : Ideal C)
    (hstate : c.state = .disconnected) (hkey : c.sharedKey = 0)
    (hsent : ∀ out ∈ sent,
      out.bytes = (Message.disconnect (sys.clients i).sharedKey : Message C).bytes) :
    Consistent hosts (sys.withClient hosts i c sent) := by
  have hnone (k : ShortSharedKey) : ¬ Holds c k := by
    rintro ⟨hne, he | ⟨hs, -⟩⟩
    · exact hne (he.symm.trans hkey)
    · rw [hstate] at hs
      cases hs
  have hfacts : ClientFacts sys.network (hosts.client i) c := by
    constructor
    · exact fun _ => hkey
    · intro hs
      rw [hstate] at hs
      cases hs
    · exact fun hne => absurd hkey hne
    · intro hs
      rw [hstate] at hs
      cases hs
  apply h.withClient
  · intro k _ hk
    exact absurd hk (hnone k)
  · exact hfacts.mono (List.subset_append_left _ _)
  · apply h.apart.keyless
    intro out ho
    exact ⟨_, hsent out ho, by simp [Message.type], by simp [Message.type]⟩
  · intro out ho
    refine ⟨_, hsent out ho, ?_, ?_⟩
    · exact ((h.clients i).known hC).imp id (Known.mono (List.subset_append_left _ _))
    · intro i' hi'
      by_cases hii : i' = i
      · subst hii
        exact hnone _ (by simpa [System.withClient] using hi')
      · -- no other client holds the key of this one
        have hi' : Holds (sys.clients i') (sys.clients i).sharedKey := by
          simpa [System.withClient, hii] using hi'
        exact hii (hosts.client_injective ((h.clients i).same hC (h.clients i') h.apart hi')).symm

end

end GameNetwork.Proofs
