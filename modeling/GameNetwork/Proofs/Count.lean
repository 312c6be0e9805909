import GameNetwork.Proofs.Ideal
import GameNetwork.Proofs.Steps
import Mathlib.Data.Fintype.Card

namespace GameNetwork.Proofs

variable {C : Crypto} {s t : Server C}

/-- How many flags of a table are set. -/
def flags {n : Nat} (f : Fin n → Bool) : Nat := (Finset.univ.filter fun i => f i = true).card

theorem flags_set {n : Nat} {f : Fin n → Bool} {i : Fin n} (h : f i = false) :
    flags (Function.update f i true) = flags f + 1 := by
  have hins : (Finset.univ.filter fun j => Function.update f i true j = true) =
      insert i (Finset.univ.filter fun j => f j = true) := by
    ext j
    by_cases hj : j = i <;> simp [hj]
  rw [flags, hins, Finset.card_insert_of_notMem (by simp [h]), flags]

theorem flags_clear {n : Nat} {f : Fin n → Bool} {i : Fin n} (h : f i = true) :
    flags (Function.update f i false) + 1 = flags f := by
  have hback : Function.update (Function.update f i false) i true = f := by
    rw [Function.update_idem, ← h, Function.update_eq_self]
  rw [← flags_set (Function.update_self i false f), hback]

/-- The counter says how many connection slots are taken. -/
def CountCorrect (s : Server C) : Prop := s.getConnectedClientCount = flags s.connected

instance (s : Server C) : Decidable (CountCorrect s) := inferInstanceAs (Decidable (_ = _))

/-- A `DISCONNECT` that verifies under the key of its sender's connection. -/
def Leaves (s : Server C) (sender : Address) (d : List UInt8) : Prop :=
  d.length ≤ receiveSize ∧ s.findExistingConnectionIndex sender > 0 ∧
    hmacType C (s.connections (slot (s.findExistingConnectionIndex sender))).sharedKey d =
      .disconnect

/-- A connected client leaves while slot 1, the slot `RemoveClient` clears, is free. -/
def LeavesFreeSlot (s : Server C) : ServerAction C → Prop
  | .listen (some (sender, d)) _ _ => Leaves s sender d ∧ s.connected 1 = false
  | _ => False

theorem Leaves.classify {sender : Address} {d : List UInt8} (h : Leaves s sender d) :
    classify s sender d = .ok (some .disconnect) := by
  rw [Proofs.classify, if_pos h.2.1, h.2.2]

theorem leaves_of_classify {sender : Address} {d : List UInt8} (hd : d.length ≤ receiveSize)
    (hc : s.findExistingConnectionIndex sender > 0)
    (ht : classify s sender d = .ok (some .disconnect)) : Leaves s sender d := by
  rw [Proofs.classify, if_pos hc] at ht
  exact ⟨hd, hc, by simpa using ht⟩

theorem create_count (C : Crypto) : CountCorrect (Server.create C) := by
  change (1 : Int) = (flags (Function.update (fun _ : Slot => false) 0 true) : Int)
  rw [flags_set rfl]
  simp [flags]

/-- One call keeps the counter right unless it clears a slot that is free. -/
theorem step_count {action : ServerAction C} (hT : Tables s) (hP : CountCorrect s)
    (hs : s.step action = some t) : CountCorrect t ↔ ¬ LeavesFreeSlot s action := by
  unfold CountCorrect Server.getConnectedClientCount at *
  constructor
  · intro ht hbad
    cases action with
    | listen arrival seed p_size =>
      cases arrival with
      | none => exact hbad
      | some p =>
        obtain ⟨hl, h1⟩ := hbad
        obtain rfl := Outcome.next_some hs
        rw [listen_disconnect hl.1 hl.classify hl.2.1] at ht
        have hsame : Function.update s.connected 1 false = s.connected := by
          rw [← h1, Function.update_eq_self]
        simp only [dropConnection, hsame] at ht
        omega
    | propagateGameData => exact hbad
    | switchToLobby => exact hbad
    | switchToGame => exact hbad
  · intro hgood
    cases step_stepped hT hs with
    | propagate h => rw [h.numConnections, h.connected, hP]
    | lobby => exact hP
    | game => exact hP
    | listen h =>
      cases h with
      | quiet ht => rw [ht.alike.numConnections, ht.alike.connected, hP]
      | challenge => exact hP
      | rechallenge => exact hP
      | withdraw => exact hP
      | accept _ _ _ _ hj =>
        have hfree := FirstIndex.passes hj
        simp only [Bool.not_eq_true'] at hfree
        simp only [accepted, flags_set hfree, hP]
        omega
      | disconnect hd ht hc =>
        have h1 : s.connected 1 = true := by
          by_contra h
          exact hgood ⟨leaves_of_classify hd hc ht, by simpa using h⟩
        have := flags_clear h1
        simp only [dropConnection, hP]
        omega

/-- The counter is right in every state of a run exactly when no connected client leaves
while slot 1 is free. -/
theorem count_correct_iff (actions : List (ServerAction C)) :
    Runs.Throughout Server.step CountCorrect (Server.create C) actions ↔
      Runs.Guarded Server.step (fun s action => ¬ LeavesFreeSlot s action) (Server.create C)
        actions :=
  Runs.throughout_iff_guarded (fun _ _ _ hT hs => step_tables hT hs)
    (fun _ _ _ hT hP hs => step_count hT hP hs) (Tables.create C) (create_count C)

/-- The client of slot 2 sends its `DISCONNECT` twice: the second finds slot 1 free. -/
theorem count_not_correct : ¬ ∀ s : Server sample, Reachable s → CountCorrect s := by
  intro h
  have hrun : (Runs.run Server.step (Server.create sample)
      (sampleJoin (sampleAddress 1) 0 1 ++ sampleJoin (sampleAddress 2) 2 3 ++
        [sampleLeave (sampleAddress 2) 2 3, sampleLeave (sampleAddress 2) 2 3])).map
      (fun s => decide (CountCorrect s)) = some false := by decide +kernel
  obtain ⟨s, hs, hc⟩ := Option.map_eq_some_iff.mp hrun
  exact of_decide_eq_false hc (h s ⟨_, hs⟩)

end GameNetwork.Proofs
