import GameNetwork.Lib.Runs
import GameNetwork.Proofs.ConsistentClient
import GameNetwork.Proofs.ConsistentServer
import GameNetwork.Proofs.Parties

namespace GameNetwork.Proofs

variable {C : Crypto} {ι : Type} {hosts : Hosts ι} {sys sys' : System C ι}

/-- Every connected client has the slot of its index to itself. -/
structure Agreement (hosts : Hosts ι) (sys : System C ι) : Prop where
  slot : ∀ i, (sys.clients i).state = .connected →
    ∃ j : Slot, (sys.clients i).index = j.val ∧ sys.server.connected j = true ∧
      (sys.server.connections j).clientAddress = hosts.client i ∧
      (sys.server.connections j).sharedKey = (sys.clients i).sharedKey
  apart : ∀ i i', (sys.clients i).state = .connected → (sys.clients i').state = .connected →
    (sys.clients i).index = (sys.clients i').index → i = i'

/-- The call is no `DISCONNECT` that takes slot 1 from its client. -/
def SparesOthers (sys : System C ι) : SystemAction C ι → Prop
  | .server action => ¬ ClearsOther sys.server action
  | .client _ _ => True

instance (sys : System C ι) : (action : SystemAction C ι) → Decidable (SparesOthers sys action)
  | .server action => inferInstanceAs (Decidable (¬ ClearsOther sys.server action))
  | .client _ _ => inferInstanceAs (Decidable True)

/-- A connected client was accepted under its key, and the accept names its slot. -/
theorem Consistent.slot (hC : Ideal C) (h : Consistent hosts sys) {i : ι}
    (hs : (sys.clients i).state = .connected) :
    ∃ j : Slot, (sys.clients i).index = j.val ∧
      HasSlot sys.server j (hosts.client i) (sys.clients i).sharedKey := by
  obtain ⟨j, hj, d, hd, he⟩ := (h.clients i).connected hs
  obtain ⟨m, hm, hon⟩ := h.honest d hd
  rw [hm] at he
  obtain ⟨k, j', rfl⟩ := Message.eq_accepted (Message.type_eq he)
  obtain ⟨rfl, rfl⟩ := hC.accepted_injective he
  obtain ⟨⟨a, x, y, -, -, hk⟩, hall⟩ := hon
  refine ⟨j', hj, hall i ⟨?_, .inl rfl⟩⟩
  rw [hk]
  exact hC.session_key_ne_zero x y

theorem Consistent.agreement (hC : Ideal C) (h : Consistent hosts sys) : Agreement hosts sys where
  slot i hs := by
    obtain ⟨j, hj, hslot⟩ := h.slot hC hs
    exact ⟨j, hj, hslot.connected, hslot.address, hslot.sharedKey⟩
  apart i i' hs hs' he := by
    obtain ⟨j, hj, hslot⟩ := h.slot hC hs
    obtain ⟨j', hj', hslot'⟩ := h.slot hC hs'
    obtain rfl : j = j' := Fin.ext (by omega)
    exact hosts.client_injective (hslot.address.symm.trans hslot'.address)

theorem step_consistent [DecidableEq ι] (hC : Ideal C) (h : Consistent hosts sys) {action : SystemAction C ι}
    (hgood : SparesOthers sys action) (hstep : System.step hosts sys action = some sys') :
    Consistent hosts sys' := by
  cases step_moves hstep with
  | client ha hact hf => exact h.client hC ha hact hf
  | server ha hact hf => exact h.server hC ha hact hf hgood

/-- Server and clients agree on their sessions in every state of a run in which no
`DISCONNECT` takes slot 1 from its client. -/
theorem agreement_kept [DecidableEq ι] (hC : Ideal C) (hosts : Hosts ι)
    (actions : List (SystemAction C ι))
    (hgood : Runs.Guarded (System.step hosts) SparesOthers (System.start C ι) actions) :
    Runs.Throughout (System.step hosts) (Agreement hosts) (System.start C ι) actions := by
  intro shorter sys hprefix hrun
  have h := (hgood.shorter hprefix).invariant
    (fun _ _ _ h hgood hstep => step_consistent hC h hgood hstep) (Consistent.start hosts) hrun
  exact h.agreement hC

/-- A server and two clients. -/
def sampleHosts : Hosts (Fin 2) where
  server := Address.ofParts 10 0 0 9 serverPort
  client i := sampleAddress (UInt8.ofNat (i.val + 1))
  client_injective := by
    unfold Function.Injective
    decide

/-- A client gets a slot: its seed is `x`, the server's is `y`. -/
def sampleJoins (i : Fin 2) (x y : Fin 8) (j : Slot) : List (SystemAction sample (Fin 2)) :=
  [.client i (.connect x),
    .server (sampleRequest (sampleHosts.client i) x y),
    .client i (.listen (some (sampleHosts.server,
      checked .challenge (sample.publicKey y).bytes)) 0 0 0),
    .client i .respondChallenge,
    .server (sampleHears (sampleHosts.client i)
      (sealed sample (sampleSession x y) (header .challengeResponse)) y),
    .client i (.listen (some (sampleHosts.server,
      sealed sample (sampleSession x y) (acceptMessage j))) 0 0 0)]

theorem agreement_sample :
    Runs.Throughout (System.step sampleHosts) (Agreement sampleHosts)
      (System.start sample (Fin 2)) (sampleJoins 0 0 1 1 ++ sampleJoins 1 2 3 2) :=
  agreement_kept sample_ideal sampleHosts _ (by decide +kernel)

/-- The client of slot 2 leaves, and the client of slot 1 is connected to nothing. -/
theorem agreement_lost :
    ¬ ∀ C : Crypto, Ideal C → ∀ (hosts : Hosts (Fin 2)) (actions : List (SystemAction C (Fin 2))),
      Runs.Throughout (System.step hosts) (Agreement hosts) (System.start C (Fin 2)) actions := by
  intro h
  have hrun : (Runs.run (System.step sampleHosts) (System.start sample (Fin 2))
      (sampleJoins 0 0 1 1 ++ sampleJoins 1 2 3 2 ++
        [.client 1 .sendDisconnect, .server (sampleLeave (sampleHosts.client 1) 2 3)])).map
      (fun sys => decide ((sys.clients 0).state = .connected ∧ (sys.clients 0).index = 1 ∧
        sys.server.connected 1 = false)) = some true := by decide +kernel
  obtain ⟨sys, hs, hd⟩ := Option.map_eq_some_iff.mp hrun
  obtain ⟨hstate, hindex, hfree⟩ := of_decide_eq_true hd
  obtain ⟨j, hj, hconn, -⟩ :=
    (h sample sample_ideal sampleHosts _ _ sys List.prefix_rfl hs).slot 0 hstate
  obtain rfl : j = 1 := Fin.ext (by simpa using (hj.symm.trans hindex))
  rw [hfree] at hconn
  cases hconn

end GameNetwork.Proofs
