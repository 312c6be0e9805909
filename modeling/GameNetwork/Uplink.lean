import GameNetwork.System

namespace GameNetwork

/-- The way of game data from the clients to the server. `wire` has the datagrams that the
`SendGameData` calls of the clients sent, oldest first; the send index of a datagram is its
place. `delivered` has the senders and send indices of the datagrams for which `Listen` stored
game data. -/
structure Uplink (C : Crypto) (ι : Type) where
  server : Server C
  clients : ι → Client C
  wire : List (ι × List UInt8) := []
  delivered : List (ι × Nat) := []

/-- The network delivers any datagram of the wire at any time, from some source address. -/
inductive UplinkAction (C : Crypto) (ι : Type) where
  | client (i : ι) (action : ClientAction C)
  | server (action : ServerAction C)
  | deliver (n : Nat) (source : Address) (seed : C.Seed) (p_size : UInt32)

namespace Uplink

variable {C : Crypto} {ι : Type}

/-- The game data among what a call on a client sends. -/
def dataSent (i : ι) (action : ClientAction C) (sent : List Outgoing) : List (ι × List UInt8) :=
  match action with
  | .sendGameData .. => sent.map fun out => (i, out.bytes)
  | _ => []

/-- What arrives is none of the datagrams on the wire. -/
def Elsewhere (wire : List (ι × List UInt8)) : Arrival → Prop
  | none => True
  | some (_, d) => ∀ e ∈ wire, e.2 ≠ d

instance (wire : List (ι × List UInt8)) : (arrival : Arrival) → Decidable (Elsewhere wire arrival)
  | none => .isTrue trivial
  | some (_, _) => inferInstanceAs (Decidable (∀ _ ∈ _, _))

/-- The datagram with send index `n` arrives. -/
def deliver (up : Uplink C ι) (n : Nat) (i : ι) (d : List UInt8) (source : Address)
    (seed : C.Seed) (p_size : UInt32) : Option (Uplink C ι) :=
  let o := up.server.listen (some (source, d)) seed p_size
  o.next.map fun s =>
    match o.result with
    | .ok { gameData := some _, .. } =>
      { up with server := s, delivered := up.delivered ++ [(i, n)] }
    | _ => { up with server := s }

def step [DecidableEq ι] (up : Uplink C ι) : UplinkAction C ι → Option (Uplink C ι)
  | .client i action => ((up.clients i).act action).map fun (c, sent) =>
    { up with
      clients := Function.update up.clients i c
      wire := up.wire ++ dataSent i action sent }
  | .server action =>
    if Elsewhere up.wire action.arrival then
      (up.server.step action).map fun s => { up with server := s }
    else none
  | .deliver n source seed p_size =>
    match up.wire[n]? with
    | some (i, d) => up.deliver n i d source seed p_size
    | none => none

end Uplink

end GameNetwork
