import GameNetwork.Lib.Runs
import GameNetwork.Proofs.Reacts
import GameNetwork.Proofs.Steps
import GameNetwork.System

namespace GameNetwork.Proofs

variable {C : Crypto} {ι : Type} {hosts : Hosts ι} {sys sys' : System C ι} {s t : Server C}
  {c : Client C} {i : ι}

theorem leaves_map {σ α : Type} (o : Outcome σ α) : o.leaves.map Prod.fst = o.next := by
  rw [Outcome.leaves, Option.map_map]
  exact Option.map_id'

/-- A call in the system is the same call on the server alone. -/
theorem server_act_step (s : Server C) (action : ServerAction C) :
    (s.act action).map Prod.fst = s.step action := by
  cases action with
  | listen | propagateGameData => exact leaves_map _
  | switchToLobby | switchToGame => rfl

theorem client_act_step (c : Client C) (action : ClientAction C) :
    (c.act action).map Prod.fst = c.step action := by
  cases action with
  | connect | sendDisconnect | listen | sendGameData => exact leaves_map _
  | respondChallenge =>
    rw [Client.act, Client.step, Option.map_bind]
    congr 1
    funext o
    exact leaves_map o
  | setActiveTimeout => rfl

theorem Reachable.step (h : Reachable s) {action : ServerAction C}
    (hs : s.step action = some t) : Reachable t := by
  obtain ⟨actions, hrun⟩ := h
  exact ⟨actions ++ [action], Runs.run_snoc hrun hs⟩

theorem ClientReachable.step (h : ClientReachable c) {action : ClientAction C} {c' : Client C}
    (hs : c.step action = some c') : ClientReachable c' := by
  obtain ⟨actions, hrun⟩ := h
  exact ⟨actions ++ [action], Runs.run_snoc hrun hs⟩

/-- Everything a step of the system can be. -/
inductive Moves [DecidableEq ι] (hosts : Hosts ι) (sys : System C ι) :
    SystemAction C ι → System C ι → Prop
  | client {i : ι} {action : ClientAction C} {c : Client C} {sent : List Outgoing}
      (ha : System.Arrives sys.network (hosts.client i) action.arrival)
      (hact : (sys.clients i).act action = some (c, sent))
      (hf : System.Fresh sys.network action.seed sent) :
      Moves hosts sys (.client i action) (sys.withClient hosts i c sent)
  | server {action : ServerAction C} {t : Server C} {sent : List Outgoing}
      (ha : System.Arrives sys.network hosts.server action.arrival)
      (hact : sys.server.act action = some (t, sent))
      (hf : System.Fresh sys.network action.seed sent) :
      Moves hosts sys (.server action) (sys.withServer hosts t sent)

theorem step_moves [DecidableEq ι] {action : SystemAction C ι}
    (h : System.step hosts sys action = some sys') : Moves hosts sys action sys' := by
  cases action with
  | client i action =>
    simp only [System.step] at h
    split at h
    · rename_i ha
      split at h
      · rename_i c sent hact
        split at h
        · rename_i hf
          cases h
          exact .client ha hact hf
        · cases h
      · cases h
    · cases h
  | server action =>
    simp only [System.step] at h
    split at h
    · rename_i ha
      split at h
      · rename_i t sent hact
        split at h
        · rename_i hf
          cases h
          exact .server ha hact hf
        · cases h
      · cases h
    · cases h

end GameNetwork.Proofs
