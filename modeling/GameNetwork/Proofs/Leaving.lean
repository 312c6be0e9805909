import GameNetwork.Proofs.Escapes
import GameNetwork.Proofs.Handshake
import GameNetwork.Proofs.Message

namespace GameNetwork.Proofs

variable {C : Crypto} {s t : Server C} {c : Client C} {a : Address} {j : Slot}
  {seed : C.Seed} {p_size : UInt32} {k : ShortSharedKey}

/-- An address whose only session is in a slot past the server's own. -/
structure SoleSession (s : Server C) (a : Address) (j : Slot) (k : ShortSharedKey) : Prop where
  slot : j ≠ 0
  connected : s.connected j = true
  address : (s.connections j).clientAddress = a
  only : ∀ i, s.connected i = true → (s.connections i).clientAddress = a → i = j
  unchallenged : s.findExistingChallengeIndex a < 0
  sharedKey : (s.connections j).sharedKey = k

/-- Slot 1 is emptied, and so many clients are no longer counted. -/
def evicted (s : Server C) (n : Nat) : Server C :=
  { dropConnection s with numConnections := s.numConnections - n }

/-- The copies of a `DISCONNECT` that arrive, one to a call. -/
def copies (a : Address) (k : ShortSharedKey) (calls : List (C.Seed × UInt32)) :
    List (ServerAction C) :=
  calls.map fun call => .listen (some (a, sealed C k (header .disconnect))) call.1 call.2

theorem dropConnection_evicted (s : Server C) (n : Nat) :
    dropConnection (evicted s n) = evicted s (n + 1) := by
  have hcount : s.numConnections - n - 1 = s.numConnections - (n + 1 : Nat) := by omega
  simp only [evicted, dropConnection, Function.update_idem, hcount]

theorem SoleSession.index (h : SoleSession s a j k) : s.findExistingConnectionIndex a = j.val := by
  apply FirstIndex.eq_of_unique (by simp [h.connected, h.address])
  intro i hi
  simp only [Bool.and_eq_true, decide_eq_true_eq] at hi
  exact h.only i hi.1 hi.2

theorem SoleSession.found (h : SoleSession s a j k) : s.findExistingConnectionIndex a > 0 := by
  have hne : j.val ≠ 0 := fun hz => h.slot (Fin.ext hz)
  have hindex := h.index
  omega

/-- A copy finds its sender in the slot. -/
theorem SoleSession.listen (h : SoleSession s a j k) :
    s.listen (some (a, sealed C k (header .disconnect))) seed p_size =
      { self := dropConnection s, result := .ok { ret := 0 } } := by
  have hlen : (sealed C k (header .disconnect)).length = 37 := by
    rw [length_sealed, length_header]
  have hmac := hmacType_sealed (C := C) (k := k) .disconnect []
  rw [List.append_nil] at hmac
  refine listen_disconnect (by rw [hlen, receiveSize]; omega) ?_ h.found
  rw [classify_connected h.found, h.index, slot_val, h.sharedKey, hmac]
  rfl

theorem SoleSession.evicted (h : SoleSession s a j k) (hj : j ≠ 1) (n : Nat) :
    SoleSession (evicted s n) a j k where
  slot := h.slot
  connected := by simpa [Proofs.evicted, dropConnection, hj] using h.connected
  address := by simpa [Proofs.evicted, dropConnection, hj] using h.address
  only := by
    intro i hi ha
    by_cases h1 : i = 1
    · simp [Proofs.evicted, dropConnection, h1] at hi
    · exact h.only i (by simpa [Proofs.evicted, dropConnection, h1] using hi)
        (by simpa [Proofs.evicted, dropConnection, h1] using ha)
  unchallenged := h.unchallenged
  sharedKey := by simpa [Proofs.evicted, dropConnection, hj] using h.sharedKey

theorem SoleSession.gone (h : SoleSession s a j k) (hj : j = 1) :
    ¬ (Proofs.evicted s 1).findExistingConnectionIndex a > 0 := by
  intro hfound
  obtain ⟨i, -, -, hi, ha⟩ := connection_found hfound
  by_cases h1 : i = 1
  · simp [Proofs.evicted, dropConnection, h1] at hi
  · have honly := h.only i (by simpa [Proofs.evicted, dropConnection, h1] using hi)
      (by simpa [Proofs.evicted, dropConnection, h1] using ha)
    exact h1 (honly.trans hj)

/-- A `DISCONNECT` of a stranger is no request, and does nothing. -/
theorem stranger_disconnect (hn : ¬ s.findExistingConnectionIndex a > 0)
    (hc : s.findExistingChallengeIndex a < 0) :
    s.step (.listen (some (a, sealed C k (header .disconnect))) seed p_size) = some s := by
  have hlen : (sealed C k (header .disconnect)).length = 37 := by
    rw [length_sealed, length_header]
  have hp : prepared s a = s := by rw [prepared, if_neg hn, if_pos hc]
  obtain ⟨b, hl, -⟩ := listen_received (d := sealed C k (header .disconnect)) s a seed p_size
    (by rw [hlen, receiveSize]; omega)
  have hcl : classify s a (sealed C k (header .disconnect)) = .ok none := by
    obtain ⟨t, ht⟩ := crcType_returns_iff (d := sealed C k (header .disconnect)).mpr
      (.inr (.inl (by rw [hlen]; decide)))
    have hne : t ≠ .connectionRequest := by
      rintro rfl
      cases Message.type_of_crc (m := .disconnect (C := C) k) ht (by simp)
    rw [classify, if_neg hn, if_pos hc, ht]
    exact if_neg hne
  rw [Server.step, hl, hcl, hp]
  rfl

theorem run_copies (h : SoleSession s a j k) {calls : List (C.Seed × UInt32)} (hne : calls ≠ []) :
    Runs.run Server.step s (copies a k calls) =
      some (evicted s (if j = 1 then 1 else calls.length)) := by
  have hfirst (call : C.Seed × UInt32) : Runs.run Server.step s (copies a k [call]) =
      some (evicted s 1) := by
    rw [copies, List.map_singleton, Runs.run, Server.step, h.listen]
    rfl
  induction calls using List.reverseRecOn with
  | nil => exact absurd rfl hne
  | append_singleton calls call ih =>
    by_cases hnil : calls = []
    · rw [hnil, List.nil_append, hfirst, List.length_singleton, ite_self]
    have hrun := ih hnil
    rw [copies, List.map_append]
    by_cases hj : j = 1
    · -- the slot is gone, and its client a stranger
      rw [if_pos hj] at hrun ⊢
      exact Runs.run_snoc hrun (stranger_disconnect (h.gone hj) h.unchallenged)
    · rw [if_neg hj] at hrun ⊢
      refine Runs.run_snoc hrun ?_
      rw [Server.step, (h.evicted hj calls.length).listen, dropConnection_evicted,
        List.length_append]
      rfl

/-- A connected client that is destroyed sends ten `DISCONNECT`s, and each copy that arrives does
its work again: slot 1 is emptied whatever slot the client has, and unless that is slot 1, where
the copies after the first are a stranger's, the count of clients falls by one with every copy. -/
theorem leaving_counts_copies (h : SoleSession s a j c.sharedKey) (hc : c.state = .connected) :
    (c.destroy.self.state = .disconnected ∧
      c.destroy.sent =
        List.replicate 10 ⟨c.serverAddress, sealed C c.sharedKey (header .disconnect)⟩) ∧
    ∀ calls, calls ≠ [] → Runs.run Server.step s (copies a c.sharedKey calls) =
      some (evicted s (if j = 1 then 1 else calls.length)) := by
  have hactive : c.state ≠ .disconnected ∧ c.state ≠ .sendingRequest := by simp [hc]
  refine ⟨?_, fun calls hne => run_copies h hne⟩
  rw [Client.destroy, if_pos hc, sendDisconnect_active hactive]
  exact ⟨rfl, rfl⟩

/-- The second of two clients leaves, and the count goes from three to seven below zero. -/
theorem second_counted_out :
    ∃ s t : Server sample, Runs.run Server.step (Server.create sample)
        (sampleJoin (sampleAddress 1) 0 1 ++ sampleJoin (sampleAddress 2) 2 3) = some s ∧
      s.getConnectedClientCount = 3 ∧
      Runs.run Server.step s (copies (sampleAddress 2) (sampleSession 2 3)
        (List.replicate 10 ((0 : Fin 8), 0))) = some t ∧
      t.getConnectedClientCount = -7 := by
  have hrun : (Runs.run Server.step (Server.create sample)
      (sampleJoin (sampleAddress 1) 0 1 ++ sampleJoin (sampleAddress 2) 2 3)).map
      (fun s => decide (s.connected 2 = true ∧
        (s.connections 2).clientAddress = sampleAddress 2 ∧
        (∀ i, s.connected i = true → (s.connections i).clientAddress = sampleAddress 2 → i = 2) ∧
        s.findExistingChallengeIndex (sampleAddress 2) < 0 ∧
        (s.connections 2).sharedKey = sampleSession 2 3 ∧ s.getConnectedClientCount = 3)) =
      some true := by decide +kernel
  obtain ⟨s, hs, hd⟩ := Option.map_eq_some_iff.mp hrun
  obtain ⟨hconnected, haddress, honly, hchall, hkey, hcount⟩ := of_decide_eq_true hd
  have hcopies := (leaving_counts_copies
    (c := { state := .connected, sharedKey := sampleSession 2 3 })
    ⟨by decide, hconnected, haddress, honly, hchall, hkey⟩ rfl).2
      (List.replicate 10 ((0 : Fin 8), 0)) (by decide)
  refine ⟨s, _, hs, hcount, hcopies, ?_⟩
  change s.getConnectedClientCount - _ = -7
  rw [hcount]
  decide

end GameNetwork.Proofs
