import GameNetwork.Lib.Runs
import GameNetwork.Proofs.Heard

namespace GameNetwork.Proofs

variable {C : Crypto} {s t : Server C} {a : Address}

/-- Only the send counters of the slots have moved. -/
structure Counted (s t : Server C) : Prop where
  challenges : t.challenges = s.challenges
  challenged : t.challenged = s.challenged
  connected : t.connected = s.connected
  numConnections : t.numConnections = s.numConnections
  state : t.state = s.state
  address : ∀ i, (t.connections i).clientAddress = (s.connections i).clientAddress
  sharedKey : ∀ i, (t.connections i).sharedKey = (s.connections i).sharedKey

theorem Counted.refl (s : Server C) : Counted s s :=
  ⟨rfl, rfl, rfl, rfl, rfl, fun _ => rfl, fun _ => rfl⟩

theorem Counted.trans {u : Server C} (h : Counted s t) (h' : Counted t u) : Counted s u where
  challenges := h'.challenges.trans h.challenges
  challenged := h'.challenged.trans h.challenged
  connected := h'.connected.trans h.connected
  numConnections := h'.numConnections.trans h.numConnections
  state := h'.state.trans h.state
  address i := (h'.address i).trans (h.address i)
  sharedKey i := (h'.sharedKey i).trans (h.sharedKey i)

/-- The next number of a slot is taken. -/
def bumped (s : Server C) (i : Slot) : Server C :=
  { s with
    connections := Function.update s.connections i
      { s.connections i with sequence := (s.connections i).sequence + 1 } }

theorem Counted.bumped (s : Server C) (i : Slot) : Counted s (bumped s i) := by
  refine ⟨rfl, rfl, rfl, rfl, rfl, fun j => ?_, fun j => ?_⟩ <;>
    by_cases hj : j = i <;> simp [Proofs.bumped, hj]

theorem propagateSlots_counted (data : GameData) (is : List Slot) (s : Server C) :
    Counted s (Server.propagateSlots data is s).self := by
  induction is generalizing s with
  | nil => exact Counted.refl s
  | cons i is ih =>
    rw [Server.propagateSlots]
    split
    · dsimp only
      split
      · exact (Counted.bumped s i).trans (ih _)
      · exact Counted.bumped s i
    · exact ih s

theorem Tables.create (C : Crypto) : Tables (Server.create C) where
  own_connected := by simp [Server.create]
  own_address := by simp [Server.create]
  challenged_one i h := by simp [Server.create] at h

theorem Counted.tables (h : Counted s t) (hT : Tables s) : Tables t where
  own_connected := by rw [h.connected]; exact hT.own_connected
  own_address := by rw [h.address]; exact hT.own_address
  challenged_one := by rw [h.challenged]; exact hT.challenged_one

/-- Challenge slot 1 is the only one that a change may use. -/
theorem Tables.challenge_change (hT : Tables s) (hc : t.connected = s.connected)
    (hn : t.connections = s.connections) (hch : ∀ i, i ≠ 1 → t.challenged i = s.challenged i) :
    Tables t where
  own_connected := by rw [hc]; exact hT.own_connected
  own_address := by rw [hn]; exact hT.own_address
  challenged_one i h := by
    by_contra hi
    rw [hch i hi] at h
    exact hi (hT.challenged_one i h)

theorem withChallenge_tables (hT : Tables s) (challenge : ChallengeInfo C) :
    Tables (withChallenge s challenge) :=
  hT.challenge_change rfl rfl fun i hi => by simp [withChallenge, hi]

theorem dropChallenge_tables (hT : Tables s) : Tables (dropChallenge s) :=
  hT.challenge_change rfl rfl fun i hi => by simp [dropChallenge, hi]

theorem dropConnection_tables (hT : Tables s) : Tables (dropConnection s) where
  own_connected := by simpa [dropConnection] using hT.own_connected
  own_address := by simpa [dropConnection] using hT.own_address
  challenged_one := hT.challenged_one

/-- A free slot is never the server's own. -/
theorem Tables.free_ne_zero (hT : Tables s) {j : Slot} (hj : s.findFreeConnectionIndex = j.val) :
    j ≠ 0 := by
  rintro rfl
  have := FirstIndex.passes (i := (0 : Slot)) hj
  rw [hT.own_connected] at this
  cases this

theorem accepted_tables (hT : Tables s) {j : Slot} (hj : s.findFreeConnectionIndex = j.val) :
    Tables (accepted s j) where
  own_connected := by
    simpa [accepted, Ne.symm (hT.free_ne_zero hj)] using hT.own_connected
  own_address := by
    simpa [accepted, Ne.symm (hT.free_ne_zero hj)] using hT.own_address
  challenged_one := (dropChallenge_tables hT).challenged_one

theorem Heard.tables {seed : C.Seed} {arrival : Arrival} {sent : List Outgoing}
    (h : Heard s seed arrival t sent) (hT : Tables s) : Tables t := by
  cases h with
  | quiet ht => exact ht.alike.tables hT
  | challenge => exact withChallenge_tables hT _
  | rechallenge => exact withChallenge_tables hT _
  | accept _ _ _ _ hj => exact accepted_tables hT hj
  | disconnect => exact dropConnection_tables hT
  | withdraw => exact dropChallenge_tables hT

/-- A step is a `Listen`, a `PropagateGameData` or a switch of the state. -/
inductive Stepped (s : Server C) : ServerAction C → Server C → Prop
  | listen {arrival : Arrival} {seed : C.Seed} {p_size : UInt32} {t : Server C}
      {sent : List Outgoing} (h : Heard s seed arrival t sent) :
      Stepped s (.listen arrival seed p_size) t
  | propagate {data : GameData} {t : Server C} (h : Counted s t) :
      Stepped s (.propagateGameData data) t
  | lobby : Stepped s .switchToLobby s.switchToLobby
  | game : Stepped s .switchToGame s.switchToGame

theorem step_stepped {action : ServerAction C} (hT : Tables s) (h : s.step action = some t) :
    Stepped s action t := by
  cases action with
  | listen arrival seed p_size =>
    obtain rfl := Outcome.next_some h
    exact .listen (listen_heard hT arrival seed p_size)
  | propagateGameData data =>
    obtain rfl := Outcome.next_some h
    exact .propagate (propagateSlots_counted data _ s)
  | switchToLobby => cases h; exact .lobby
  | switchToGame => cases h; exact .game

theorem step_tables {action : ServerAction C} (hT : Tables s) (h : s.step action = some t) :
    Tables t := by
  cases step_stepped hT h with
  | listen h => exact h.tables hT
  | propagate h => exact h.tables hT
  | lobby => exact ⟨hT.own_connected, hT.own_address, hT.challenged_one⟩
  | game => exact ⟨hT.own_connected, hT.own_address, hT.challenged_one⟩

/-- A server some run of calls leads to. -/
def Reachable (s : Server C) : Prop :=
  ∃ actions, Runs.run Server.step (Server.create C) actions = some s

theorem Reachable.tables (h : Reachable s) : Tables s := by
  obtain ⟨actions, h⟩ := h
  exact Runs.invariant (fun _ _ _ hT hs => step_tables hT hs) (Tables.create C) h

end GameNetwork.Proofs
