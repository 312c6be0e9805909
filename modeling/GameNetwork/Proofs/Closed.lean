import GameNetwork.Lib.Refinement
import GameNetwork.Proofs.Agreement

namespace GameNetwork.Proofs

variable {C : Crypto} {ι : Type} {hosts : Hosts ι} {sys sys' : System C ι} {s t u : Server C}
  {arrival : Arrival} {seed : C.Seed} {p_size : UInt32} {sent : List Outgoing}
  {action : ServerAction C}

/-- Nobody new is in the tables, and nobody has another key. -/
structure Shrinks (s t : Server C) : Prop where
  connected : ∀ i, t.connected i = true → s.connected i = true ∧
    (t.connections i).clientAddress = (s.connections i).clientAddress ∧
    (t.connections i).sharedKey = (s.connections i).sharedKey
  challenged : ∀ i, t.challenged i = true → s.challenged i = true ∧
    (t.challenges i).clientAddress = (s.challenges i).clientAddress

theorem Shrinks.refl (s : Server C) : Shrinks s s where
  connected _ hi := ⟨hi, rfl, rfl⟩
  challenged _ hi := ⟨hi, rfl⟩

theorem Shrinks.trans (h : Shrinks s t) (h' : Shrinks t u) : Shrinks s u where
  connected i hi := by
    obtain ⟨hi, ha', hk'⟩ := h'.connected i hi
    obtain ⟨hi, ha, hk⟩ := h.connected i hi
    exact ⟨hi, ha'.trans ha, hk'.trans hk⟩
  challenged i hi := by
    obtain ⟨hi, ha'⟩ := h'.challenged i hi
    obtain ⟨hi, ha⟩ := h.challenged i hi
    exact ⟨hi, ha'.trans ha⟩

section
variable [DecidableEq ι]

end

end GameNetwork.Proofs
