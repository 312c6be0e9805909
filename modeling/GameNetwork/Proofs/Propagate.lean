import GameNetwork.Proofs.Room
import GameNetwork.Proofs.Steps

namespace GameNetwork.Proofs

variable {C : Crypto} {s : Server C} {a : Address} {i : Slot}

/-- What `PropagateGameData` sends to a slot. -/
def slotDatagram (s : Server C) (data : GameData) (j : Slot) : Outgoing :=
  ⟨(s.connections j).clientAddress, sealed C (s.connections j).sharedKey
    (dataMessage ((s.connections j).sequence + 1) data.bytes)⟩

theorem slotDatagram_bumped (data : GameData) {j : Slot} (h : j ≠ i) :
    slotDatagram (bumped s i) data j = slotDatagram s data j := by
  simp [slotDatagram, bumped, h]

/-- Whatever is sent is the payload sealed for a connected slot, also when a call is cut short. -/
theorem propagateSlots_mem (data : GameData) {out : Outgoing} {is : List Slot}
    (h : out ∈ (Server.propagateSlots data is s).sent) :
    ∃ j ∈ is, ∃ sequence, s.connected j = true ∧ out = ⟨(s.connections j).clientAddress,
      sealed C (s.connections j).sharedKey (dataMessage sequence data.bytes)⟩ := by
  induction is generalizing s with
  | nil => cases h
  | cons i is ih =>
    rw [Server.propagateSlots] at h
    split at h
    · rename_i hi
      dsimp only at h
      split at h
      · rename_i bytes hw
        rcases List.mem_cons.mp h with rfl | h
        · exact ⟨i, List.mem_cons_self, _, hi, by rw [written_data C hw]⟩
        · obtain ⟨j, hmem, sequence, hj, ho⟩ := ih (s := bumped s i) h
          have hb := Counted.bumped s i
          rw [hb.connected] at hj
          rw [hb.address, hb.sharedKey] at ho
          exact ⟨j, List.mem_cons_of_mem i hmem, sequence, hj, ho⟩
      · cases h
    · obtain ⟨j, hmem, hrest⟩ := ih h
      exact ⟨j, List.mem_cons_of_mem i hmem, hrest⟩

/-- One datagram for every connected slot, in the order of the slots. -/
theorem propagateSlots_sent (data : GameData) (hu : 43 + data.bytes.length < 2 ^ 31)
    (is : List Slot) (hnd : is.Nodup) (s : Server C) :
    (Server.propagateSlots data is s).sent =
      (is.filter fun j => s.connected j).map (slotDatagram s data) := by
  induction is generalizing s with
  | nil => rfl
  | cons i is ih =>
    rw [List.nodup_cons] at hnd
    rw [Server.propagateSlots]
    by_cases hi : s.connected i = true
    · have hw := written_connectionData C (s.connections i).sharedKey
        ((s.connections i).sequence + 1) hu
      have hrest := ih hnd.2 (bumped s i)
      have hmap : (is.filter fun j => s.connected j).map (slotDatagram (bumped s i) data) =
          (is.filter fun j => s.connected j).map (slotDatagram s data) := by
        refine List.map_congr_left fun j hj => slotDatagram_bumped data ?_
        rintro rfl
        exact hnd.1 (List.mem_filter.mp hj).1
      rw [(Counted.bumped s i).connected, hmap] at hrest
      rw [if_pos hi, List.filter_cons_of_pos (by simpa using hi), List.map_cons]
      simp only [hw]
      exact congrArg (slotDatagram s data i :: ·) hrest
    · rw [if_neg hi, List.filter_cons_of_neg (by simpa using hi)]
      exact ih hnd.2 s

/-- The send counter of a connected slot goes up by one. -/
theorem propagateSlots_sequence (data : GameData) (hu : 43 + data.bytes.length < 2 ^ 31)
    (is : List Slot) (hnd : is.Nodup) (s : Server C) (hi : s.connected i = true) :
    ((Server.propagateSlots data is s).self.connections i).sequence =
      (s.connections i).sequence + if i ∈ is then 1 else 0 := by
  induction is generalizing s with
  | nil => simp [Server.propagateSlots]
  | cons j is ih =>
    rw [List.nodup_cons] at hnd
    rw [Server.propagateSlots]
    by_cases hj : s.connected j = true
    · have hw := written_connectionData C (s.connections j).sharedKey
        ((s.connections j).sequence + 1) hu
      have hrest := ih hnd.2 (bumped s j) (by rwa [(Counted.bumped s j).connected])
      rw [if_pos hj]
      simp only [hw]
      refine hrest.trans ?_
      by_cases hij : i = j
      · subst hij
        simp [bumped, hnd.1]
      · simp [bumped, hij]
    · have hij : i ≠ j := by
        rintro rfl
        exact hj hi
      rw [if_neg hj, ih hnd.2 s hi]
      simp [hij]

/-- With one slot for an address, a call sends one datagram there. -/
theorem propagate_to_slot (data : GameData) (hu : 43 + data.bytes.length < 2 ^ 31) (hi : i ≠ 0)
    (hc : s.connected i = true) (ha : (s.connections i).clientAddress = a)
    (hone : ∀ j, s.connected j = true → (s.connections j).clientAddress = a → j = i) :
    ((s.propagateGameData data).sent.filter fun out => out.destination = a).map Outgoing.bytes =
      [sealed C (s.connections i).sharedKey
        (dataMessage ((s.connections i).sequence + 1) data.bytes)] := by
  have hpick : ∀ k : Slot, k ≠ 0 → ([1, 2, 3] : List Slot).filter (fun j => decide (j = k)) = [k] := by
    decide
  have hone' (j : Slot) : (decide ((slotDatagram s data j).destination = a) && s.connected j) =
      decide (j = i) := by
    by_cases hj : j = i
    · simp [hj, hc, ha, slotDatagram]
    · simp only [hj, decide_false, Bool.and_eq_false_iff, decide_eq_false_iff_not]
      by_cases hcj : s.connected j = true
      · exact .inl fun h => hj (hone j hcj h)
      · exact .inr (by simpa using hcj)
  rw [Server.propagateGameData, propagateSlots_sent data hu _ (by decide), List.filter_map,
    List.filter_filter]
  simp only [Function.comp_apply, hone', hpick i hi]
  rfl

end GameNetwork.Proofs
