import GameNetwork.Proofs.Shutdown

namespace GameNetwork.Proofs

variable {C : Crypto} {ι : Type} {hosts : Hosts ι} {sys : System C ι} {i : ι} {j : Slot}
  {k k' : ShortSharedKey} {d : Datagram}

theorem Ideal.sealed_injective (hC : Ideal C) {m : List UInt8} (h : sealed C k m = sealed C k' m) :
    k = k' :=
  hC.hmac_key_inj k k' m (Digest.ext (List.append_cancel_left h))

/-- Nobody holds a key that a `DISCONNECT` was sealed with. -/
theorem Consistent.given_up (hC : Ideal C) (h : Consistent hosts sys) (hd : d ∈ sys.network)
    (hbytes : d.bytes = sealed C k (header .disconnect)) : ¬ Holds (sys.clients i) k := by
  obtain ⟨m, hm, hon⟩ := h.honest d hd
  have hsame : m.bytes = (Message.disconnect k : Message C).bytes := hm.symm.trans hbytes
  obtain ⟨k', rfl⟩ := Message.eq_disconnect (Message.type_eq hsame)
  obtain rfl := hC.sealed_injective hsame
  exact hon.2 i

/-- A client that has left cannot come back while the server keeps its slot: in every state of a
run that keeps the sessions and in which a `DISCONNECT` under the key of the slot was sent, the
client at the address of the slot is not connected, whatever it has asked for and heard since. -/
theorem left_cannot_return [DecidableEq ι] (hC : Ideal C) {actions : List (SystemAction C ι)}
    (hgood : Runs.Guarded (System.step hosts) KeepsSessions (System.start C ι) actions)
    (hrun : Runs.run (System.step hosts) (System.start C ι) actions = some sys)
    (hslot : HasSlot sys.server j (hosts.client i) k) (hd : d ∈ sys.network)
    (hbytes : d.bytes = sealed C k (header .disconnect)) :
    (sys.clients i).state ≠ .connected := by
  intro hs
  have h := run_settled hC hgood hrun
  -- the client's slot can only be this one, and then its key is the one it gave up
  obtain ⟨j', -, hown⟩ := h.consistent.slot hC hs
  obtain rfl : j' = j := h.single.connected j' j hown.connected hslot.connected
    (hown.address.trans hslot.address.symm)
  have hkey : (sys.clients i).sharedKey = k := hown.sharedKey.symm.trans hslot.sharedKey
  exact h.consistent.given_up hC hd hbytes ⟨hkey ▸ h.consistent.keyed hC hs, .inl hkey⟩

/-- The second client leaves and asks to join again. The server, which has not heard that it left,
takes the request for a bad packet of the old session. -/
theorem second_stranded :
    ∃ sys, Runs.run (System.step sampleHosts) (System.start sample (Fin 2))
        (sampleJoins 0 0 1 1 ++ sampleJoins 1 2 3 2 ++ [.client 1 .sendDisconnect,
          .client 1 (.connect (4 : Fin 8)), .server (sampleRequest (sampleHosts.client 1) 4 5)]) =
          some sys ∧
      (sys.clients 1).state = .sendingRequest ∧ sys.server.challenged 1 = false ∧
      (sys.clients 1).state ≠ .connected := by
  have hrun : (Runs.run (System.step sampleHosts) (System.start sample (Fin 2))
      (sampleJoins 0 0 1 1 ++ sampleJoins 1 2 3 2 ++ [.client 1 .sendDisconnect,
        .client 1 (.connect (4 : Fin 8)), .server (sampleRequest (sampleHosts.client 1) 4 5)])).map
      (fun sys => decide ((sys.clients 1).state = .sendingRequest ∧
        sys.server.challenged 1 = false ∧ sys.server.connected 2 = true ∧
        (sys.server.connections 2).clientAddress = sampleHosts.client 1 ∧
        (sys.server.connections 2).sharedKey = sampleSession 2 3 ∧
        ∃ d ∈ sys.network, d.bytes = sealed sample (sampleSession 2 3) (header .disconnect))) =
      some true := by decide +kernel
  obtain ⟨sys, hs, hdecided⟩ := Option.map_eq_some_iff.mp hrun
  obtain ⟨hstate, hfree, hconnected, haddress, hkey, d, hd, hbytes⟩ := of_decide_eq_true hdecided
  exact ⟨sys, hs, hstate, hfree, left_cannot_return sample_ideal (by decide +kernel) hs
    ⟨hconnected, haddress, hkey⟩ hd hbytes⟩

end GameNetwork.Proofs
