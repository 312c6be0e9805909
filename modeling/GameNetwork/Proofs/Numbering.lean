import GameNetwork.Lib.Numbered
import GameNetwork.Lib.Refinement
import GameNetwork.Proofs.Delivery

namespace GameNetwork.Proofs

variable {C : Crypto} {i : Slot} {a : Address} {k : ShortSharedKey} {ch ch' : Channel C}
  {action : ChannelAction}

/-- What an action is to a channel without counters. -/
def event : ChannelAction → Numbered.Event (List UInt8)
  | .propagate data => .send data.bytes
  | .deliver n _ _ _ _ => .arrive n

/-- The payloads the network brings are named by their place among those propagated. -/
def arrivals (actions : List ChannelAction) : List Nat := Numbered.arrivals (actions.map event)

end GameNetwork.Proofs
