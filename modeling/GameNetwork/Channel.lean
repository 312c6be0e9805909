import GameNetwork.Client
import GameNetwork.Server

namespace GameNetwork

/-- The way of game data from the server to one of its clients. `wire` has the datagrams sent
to the client's address, `propagated` what they carry, oldest first; the send index of a
datagram is its place in them, counted from 1. `accepted` has the send indices `Listen`
accepted and `returned` what it stored for its caller. -/
structure Channel (C : Crypto) where
  server : Server C
  client : Client C
  wire : List (List UInt8) := []
  propagated : List (List UInt8) := []
  accepted : List Nat := []
  returned : List (List UInt8) := []

/-- The network delivers any datagram of the wire at any time, from some source address. -/
inductive ChannelAction where
  | propagate (data : GameData)
  | deliver (n : Nat) (source : Address) (p_size : UInt32) (received now : Int)

namespace Channel

variable {C : Crypto}

/-- The send index of the newest accepted packet, 0 when there is none. -/
def newest (ch : Channel C) : Nat := ch.accepted.getLastD 0

def propagate (ch : Channel C) (a : Address) (data : GameData) : Channel C :=
  let o := ch.server.propagateGameData data
  { ch with
    server := o.self
    wire := ch.wire ++ (o.sent.filter fun out => out.destination = a).map Outgoing.bytes
    propagated := ch.propagated ++ [data.bytes] }

/-- The datagram with send index `n + 1` arrives. -/
def deliver (ch : Channel C) (n : Nat) (d : List UInt8) (source : Address) (p_size : UInt32)
    (received now : Int) : Channel C :=
  let o := ch.client.listen (some (source, d)) p_size received now
  match o.result with
  | .ok { gameData := some data, .. } =>
    { ch with
      client := o.self
      accepted := ch.accepted ++ [n + 1]
      returned := ch.returned ++ [data] }
  | _ => { ch with client := o.self }

def step (a : Address) (ch : Channel C) : ChannelAction → Option (Channel C)
  | .propagate data => some (ch.propagate a data)
  | .deliver n source p_size received now =>
    ch.wire[n]?.map fun d => ch.deliver n d source p_size received now

end Channel

end GameNetwork
