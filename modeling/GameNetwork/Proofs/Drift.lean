import GameNetwork.Proofs.Answers
import GameNetwork.Proofs.Lifetime

namespace GameNetwork.Proofs

variable {C : Crypto} {s t : Server C} {arrival : Arrival} {seed : C.Seed} {p_size : UInt32}
  {sent : List Outgoing} {action : ServerAction C}

/-- The clients that a call to `Listen` accepts. -/
def admits (s : Server C) : ServerAction C → Nat
  | .listen arrival seed p_size =>
    ofType .connectionAccepted (s.listen arrival seed p_size).sent
  | _ => 0

/-- A client leaves and slot 1 is taken, so that it becomes free. -/
def vacated (s : Server C) (action : ServerAction C) : Nat :=
  if SomebodyLeaves s action ∧ s.connected 1 = true then 1 else 0

/-- A client leaves and no slot becomes free. -/
def missed (s : Server C) (action : ServerAction C) : Nat :=
  if SomebodyLeaves s action ∧ s.connected 1 = false then 1 else 0

theorem challenge_admits {a : Address} (key : List UInt8) :
    ofType .connectionAccepted [⟨a, checked .challenge key⟩] = 0 := by
  rw [ofType_singleton, getD_checked]
  rfl

theorem accept_admits {a : Address} {k : ShortSharedKey} (j : Slot) :
    ofType .connectionAccepted [⟨a, sealed C k (acceptMessage j)⟩] = 1 := by
  rw [ofType_singleton, acceptMessage, getD_sealed_header]
  rfl

/-- A client that leaves empties slot 1 or is missed. -/
theorem leaving_books (hl : SomebodyLeaves s action) (h : s.step action = some t) :
    admits s action = 0 ∧ t.numConnections + 1 = s.numConnections ∧
      vacated s action + flags t.connected = flags s.connected ∧
      vacated s action + missed s action = 1 := by
  have hslot : flags (Function.update s.connected 1 false) + vacated s action =
      flags s.connected ∧ vacated s action + missed s action = 1 := by
    cases h1 : s.connected 1 with
    | true =>
      have hv : vacated s action = 1 := if_pos ⟨hl, h1⟩
      have hm : missed s action = 0 := if_neg (by simp [h1])
      rw [hv, hm]
      exact ⟨flags_clear h1, rfl⟩
    | false =>
      have hv : vacated s action = 0 := if_neg (by simp [h1])
      have hm : missed s action = 1 := if_pos ⟨hl, h1⟩
      have hsame : Function.update s.connected 1 false = s.connected := by
        rw [← h1, Function.update_eq_self]
      rw [hv, hm, hsame]
      exact ⟨rfl, rfl⟩
  match action, hl, hslot with
  | .listen (some (sender, d)) seed p_size, hl, ⟨hflags, hone⟩ =>
    obtain rfl := Outcome.next_some h
    have hlisten : s.listen (some (sender, d)) seed p_size =
        { self := dropConnection s, result := .ok { ret := 0 } } :=
      listen_disconnect hl.1 hl.classify hl.2.1
    refine ⟨?_, ?_, ?_, hone⟩
    · rw [admits, hlisten]
      rfl
    · rw [hlisten]
      simp [dropConnection]
    · rw [hlisten, Nat.add_comm]
      exact hflags

/-- Any other call takes a slot with every accept. -/
theorem staying_books (hT : Tables s) (hl : ¬ SomebodyLeaves s action)
    (h : s.step action = some t) : flags t.connected = flags s.connected + admits s action ∧
      t.numConnections = s.numConnections + admits s action := by
  cases action with
  | listen arrival seed p_size =>
    obtain rfl := Outcome.next_some h
    rw [admits]
    have hh := listen_heard hT arrival seed p_size
    generalize (s.listen arrival seed p_size).self = t at hh ⊢
    generalize (s.listen arrival seed p_size).sent = sent at hh ⊢
    cases hh with
    | quiet hf =>
      rw [hf.alike.connected, hf.alike.numConnections]
      exact ⟨rfl, (add_zero _).symm⟩
    | challenge | rechallenge =>
      rw [challenge_admits]
      exact ⟨rfl, (add_zero _).symm⟩
    | @accept sender d j hd hcl hs hc hj =>
      have hfree : s.connected j = false := by simpa using FirstIndex.passes hj
      rw [accept_admits]
      exact ⟨flags_set hfree, rfl⟩
    | disconnect hd hcl hc => exact absurd (leaves_of_classify hd hc hcl) hl
    | withdraw => exact ⟨rfl, (add_zero _).symm⟩
  | propagateGameData data =>
    obtain rfl := Outcome.next_some h
    have hc := propagateSlots_counted data [1, 2, 3] s
    rw [Server.propagateGameData, hc.connected, hc.numConnections]
    exact ⟨rfl, (add_zero _).symm⟩
  | switchToLobby | switchToGame =>
    cases h
    exact ⟨rfl, (add_zero _).symm⟩

theorem step_slots (hT : Tables s) (h : s.step action = some t) :
    vacated s action + flags t.connected = admits s action + flags s.connected := by
  by_cases hl : SomebodyLeaves s action
  · obtain ⟨hadmits, -, hslots, -⟩ := leaving_books hl h
    omega
  · have hvacated : vacated s action = 0 := if_neg fun hv => hl hv.1
    have hslots := (staying_books hT hl h).1
    omega

theorem step_drift (hT : Tables s) (h : s.step action = some t) :
    t.numConnections - flags t.connected + missed s action =
      s.numConnections - flags s.connected := by
  by_cases hl : SomebodyLeaves s action
  · obtain ⟨-, hcount, hslots, hone⟩ := leaving_books hl h
    omega
  · have hmissed : missed s action = 0 := if_neg fun hm => hl hm.1
    obtain ⟨hslots, hcount⟩ := staying_books hT hl h
    omega

theorem missed_le_one (s : Server C) (action : ServerAction C) : missed s action ≤ 1 := by
  unfold missed
  split <;> omega

/-- How far the client count drifts. Over every run, the slots that are taken are the server's own
and those of the clients that were accepted, less those that were emptied, and the count is short by
exactly the clients that left while slot 1 was free. An `int` has it in a run of fewer than 2^31
calls. -/
theorem count_drifts {actions : List (ServerAction C)}
    (hrun : Runs.run Server.step (Server.create C) actions = some s) :
    (Runs.trace Server.step vacated (Server.create C) actions).sum + flags s.connected =
        (Runs.trace Server.step admits (Server.create C) actions).sum + 1 ∧
      s.getConnectedClientCount + (Runs.trace Server.step missed (Server.create C) actions).sum =
        flags s.connected ∧
      (actions.length < 2 ^ 31 → int32 s.getConnectedClientCount = s.getConnectedClientCount) := by
  have hone : flags (Server.create C).connected = 1 := by
    have hcreate := create_count C
    simp only [CountCorrect, Server.getConnectedClientCount, Server.create] at hcreate ⊢
    omega
  have hslots : (Runs.trace Server.step vacated (Server.create C) actions).sum +
      flags s.connected = (Runs.trace Server.step admits (Server.create C) actions).sum + 1 := by
    have h := Runs.trace_sum_eq (F := fun s => flags s.connected)
      (fun _ _ _ hT h => step_tables hT h) (fun _ _ _ hT h => step_slots hT h) (.create C) hrun
    simpa only [hone] using h
  have hcount : s.numConnections + (Runs.trace Server.step missed (Server.create C) actions).sum =
      flags s.connected := by
    have hdrift : s.numConnections - flags s.connected +
        (Runs.trace Server.step missed (Server.create C) actions).sum =
          (Server.create C).numConnections - flags (Server.create C).connected :=
      Runs.trace_sum_debit (F := fun s => s.numConnections - flags s.connected)
        (fun _ _ _ hT h => step_tables hT h) (fun _ _ _ hT h => step_drift hT h) (.create C) hrun
    have hcreate : (Server.create C).numConnections = 1 := rfl
    rw [hone, hcreate] at hdrift
    omega
  refine ⟨hslots, hcount, fun hshort => ?_⟩
  -- the count is at most the slots, and loses at most one in a call
  have hfour : flags s.connected ≤ 4 := Finset.card_le_univ _
  have hmissed : (Runs.trace Server.step missed (Server.create C) actions).sum ≤ actions.length :=
    Runs.trace_sum_le_length missed_le_one _ actions
  rw [Server.getConnectedClientCount, int32, Int.bmod_def]
  omega

/-- Two clients join, and the second leaves twice: its second `DISCONNECT` is missed. -/
theorem drift_sample :
    let actions := sampleJoin (sampleAddress 1) 0 1 ++ sampleJoin (sampleAddress 2) 2 3 ++
      [sampleLeave (sampleAddress 2) 2 3, sampleLeave (sampleAddress 2) 2 3]
    ∃ s, Runs.run Server.step (Server.create sample) actions = some s ∧
      s.getConnectedClientCount = 1 ∧ flags s.connected = 2 ∧
      s.getConnectedClientCount +
          (Runs.trace Server.step missed (Server.create sample) actions).sum =
        flags s.connected := by
  intro actions
  have hrun : (Runs.run Server.step (Server.create sample) actions).map
      (fun s => decide (s.getConnectedClientCount = 1 ∧ flags s.connected = 2)) = some true := by
    decide +kernel
  obtain ⟨s, hs, hd⟩ := Option.map_eq_some_iff.mp hrun
  obtain ⟨hcount, hflags⟩ := of_decide_eq_true hd
  exact ⟨s, hs, hcount, hflags, (count_drifts hs).2.1⟩

end GameNetwork.Proofs
