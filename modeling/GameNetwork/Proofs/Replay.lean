import GameNetwork.Proofs.ConsistentClient
import GameNetwork.Proofs.Reported
import GameNetwork.Uplink

namespace GameNetwork.Proofs

variable {C : Crypto} {ι : Type} {up t : Uplink C ι} {c t' : Client C} {i : ι} {n : Nat}
  {d : List UInt8} {source : Address} {seed : C.Seed} {p_size : UInt32}

/-- Of every client no payload is delivered twice, and none after a later one. -/
def InSendOrder (delivered : List (ι × Nat)) : Prop :=
  delivered.Pairwise fun e e' => e.1 = e'.1 → e.2 < e'.2

/-- Game data of some session. -/
def IsGameData (C : Crypto) (d : List UInt8) : Prop :=
  ∃ (k : ShortSharedKey) (sequence : UInt16) (data : List UInt8),
    d = sealed C k (dataMessage sequence data)

/-- The datagram of the wire that arrives, if the server can take it. -/
def takenBy (up : Uplink C ι) : UplinkAction C ι → Option (ι × Nat)
  | .deliver n source _ p_size =>
    match up.wire[n]? with
    | some (i, d) => if Takes up.server source d p_size then some (i, n) else none
    | none => none
  | _ => none

/-- An uplink with a log of the datagrams that arrived when the server could take them. -/
structure Logged (C : Crypto) (ι : Type) where
  uplink : Uplink C ι
  taken : List (ι × Nat) := []

namespace Logged

def step [DecidableEq ι] (l : Logged C ι) (action : UplinkAction C ι) : Option (Logged C ι) :=
  (l.uplink.step action).map fun up =>
    { uplink := up, taken := l.taken ++ (takenBy l.uplink action).toList }

/-- What the server can take was sent after everything it could take from that client before. -/
def InTurn (l : Logged C ι) (action : UplinkAction C ι) : Prop :=
  ∀ e ∈ takenBy l.uplink action, ∀ e' ∈ l.taken, e'.1 = e.1 → e'.2 < e.2

/-- What is taken is delivered. -/
structure Follows (l : Logged C ι) : Prop where
  wire : ∀ e ∈ l.uplink.wire, IsGameData C e.2
  delivered : l.uplink.delivered = l.taken

end Logged

/-- Only `SendGameData` puts anything on the wire. -/
theorem dataSent_isGameData {action : ClientAction C} {sent : List Outgoing}
    (h : c.act action = some (t', sent)) {e : ι × List UInt8}
    (he : e ∈ Uplink.dataSent i action sent) : IsGameData C e.2 := by
  cases action with
  | sendGameData data reported =>
    obtain ⟨out, ho, rfl⟩ := List.mem_map.mp he
    obtain ⟨-, rfl⟩ := Outcome.leaves_some h
    obtain ⟨-, rfl⟩ := sendGameData_sends ho
    exact ⟨_, _, _, rfl⟩
  | connect | respondChallenge | sendDisconnect | listen | setActiveTimeout => cases he

/-- A datagram of the wire is delivered exactly when the server can take it. -/
theorem deliver_delivered (hd : IsGameData C d)
    (h : up.deliver n i d source seed p_size = some t) :
    t.wire = up.wire ∧ t.delivered =
      up.delivered ++ if Takes up.server source d p_size then [(i, n)] else [] := by
  obtain ⟨k, sequence, data, rfl⟩ := hd
  obtain ⟨s, hs, rfl⟩ := Option.map_eq_some_iff.mp h
  by_cases htakes : Takes up.server source (sealed C k (dataMessage sequence data)) p_size
  · rw [takes_returns htakes seed, if_pos htakes]
    exact ⟨rfl, rfl⟩
  · rw [if_neg htakes, List.append_nil]
    split
    · rename_i ret g hr
      obtain ⟨sender, d', data', he, htakes', -, -⟩ := server_listen_reports hr rfl
      cases he
      exact absurd htakes' htakes
    · exact ⟨rfl, rfl⟩

section
variable [DecidableEq ι]

theorem uplink_step_follows {action : UplinkAction C ι} {l : Logged C ι} (h : l.Follows)
    (hs : l.uplink.step action = some t) : (∀ e ∈ t.wire, IsGameData C e.2) ∧
      t.delivered = l.uplink.delivered ++ (takenBy l.uplink action).toList := by
  cases action with
  | client i action =>
    obtain ⟨⟨c, sent⟩, hact, rfl⟩ := Option.map_eq_some_iff.mp hs
    refine ⟨fun e he => ?_, (List.append_nil _).symm⟩
    rcases List.mem_append.mp he with he | he
    · exact h.wire e he
    · exact dataSent_isGameData hact he
  | server action =>
    rw [Uplink.step] at hs
    split at hs
    · obtain ⟨s, -, rfl⟩ := Option.map_eq_some_iff.mp hs
      exact ⟨h.wire, (List.append_nil _).symm⟩
    · cases hs
  | deliver n source seed p_size =>
    rw [Uplink.step] at hs
    cases hn : l.uplink.wire[n]? with
    | none => rw [hn] at hs; cases hs
    | some e =>
      rw [hn] at hs
      have htaken : takenBy l.uplink (.deliver n source seed p_size) =
          if Takes l.uplink.server source e.2 p_size then some (e.1, n) else none := by
        simp only [takenBy, hn]
      obtain ⟨hw, hdel⟩ := deliver_delivered (h.wire e (List.mem_of_getElem? hn)) hs
      rw [htaken, hdel, hw]
      refine ⟨h.wire, ?_⟩
      split <;> rfl

namespace Logged

variable {l l' : Logged C ι} {action : UplinkAction C ι}

theorem step_follows (h : l.Follows) (hs : l.step action = some l') : l'.Follows := by
  obtain ⟨t, ht, rfl⟩ := Option.map_eq_some_iff.mp hs
  obtain ⟨hwire, hdel⟩ := uplink_step_follows h ht
  exact ⟨hwire, by rw [hdel, h.delivered]⟩

theorem step_inSendOrder_iff (h : l.Follows) (hp : InSendOrder l.uplink.delivered)
    (hs : l.step action = some l') : InSendOrder l'.uplink.delivered ↔ l.InTurn action := by
  rw [(step_follows h hs).delivered]
  obtain ⟨t, ht, rfl⟩ := Option.map_eq_some_iff.mp hs
  rw [h.delivered] at hp
  unfold InSendOrder at hp ⊢
  rw [List.pairwise_append, InTurn]
  cases takenBy l.uplink action with
  | none => simp [hp]
  | some e => simp [hp]

end Logged

/-- In a run of a server and its clients `Server::Listen` delivers every payload at most once
and none after a later one of its client, exactly when what the server can take arrives in the
order it was sent and not twice. -/
theorem uplink_in_order_iff (server : Server C) (clients : ι → Client C)
    (actions : List (UplinkAction C ι)) :
    Runs.Throughout Logged.step (fun l => InSendOrder l.uplink.delivered)
        { uplink := { server, clients } } actions ↔
      Runs.Guarded Logged.step Logged.InTurn { uplink := { server, clients } } actions := by
  refine Runs.throughout_iff_guarded (I := Logged.Follows)
    (fun _ _ _ h hs => Logged.step_follows h hs)
    (fun _ _ _ h hp hs => Logged.step_inSendOrder_iff h hp hs) ?_ List.Pairwise.nil
  constructor
  · intro e he
    cases he
  · rfl

end

/-- A client joins and sends one payload, and the network delivers the datagram twice. -/
def sampleReplay (x y : Fin 8) : List (UplinkAction sample Unit) :=
  (sampleAnswer (sampleAddress 9) x y ++ [sampleAccepted (sampleAddress 9) x y]).map (.client ()) ++
    (sampleJoin (sampleAddress 1) x y ++ [ServerAction.switchToGame]).map .server ++
    [.client () (.sendGameData (samplePayload 7) true), .deliver 0 (sampleAddress 1) y 1024,
      .deliver 0 (sampleAddress 1) y 1024]

theorem replayed_delivery : ¬ ∀ actions : List (UplinkAction sample Unit),
    Runs.Throughout Logged.step (fun l => InSendOrder l.uplink.delivered)
      { uplink := { server := Server.create sample, clients := fun _ => {} } } actions := by
  intro h
  have hrun : (Runs.run Logged.step
      { uplink := { server := Server.create sample, clients := fun _ => {} } }
      (sampleReplay 0 1)).map (fun l => l.uplink.delivered) = some [((), 0), ((), 0)] := by
    decide +kernel
  obtain ⟨l, hl, hd⟩ := Option.map_eq_some_iff.mp hrun
  have horder : InSendOrder l.uplink.delivered := h (sampleReplay 0 1) _ _ List.prefix_rfl hl
  rw [hd] at horder
  exact absurd ((List.pairwise_cons.mp horder).1 _ List.mem_cons_self rfl) (by decide)

end GameNetwork.Proofs
