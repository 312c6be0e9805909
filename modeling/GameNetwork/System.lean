import GameNetwork.Client
import GameNetwork.Server

namespace GameNetwork

/-- What a call on a client leaves and sends. -/
def Client.act {C : Crypto} (c : Client C) : ClientAction C → Option (Client C × List Outgoing)
  | .connect seed => (c.connect seed).leaves
  | .respondChallenge => c.runThread.bind Outcome.leaves
  | .sendDisconnect => c.sendDisconnect.leaves
  | .listen arrival p_size received now => (c.listen arrival p_size received now).leaves
  | .sendGameData data sent => (c.sendGameData data sent).leaves
  | .setActiveTimeout p_value => some (c.setActiveTimeout p_value, [])

def Server.act {C : Crypto} (s : Server C) : ServerAction C → Option (Server C × List Outgoing)
  | .listen arrival seed p_size => (s.listen arrival seed p_size).leaves
  | .propagateGameData data => (s.propagateGameData data).leaves
  | .switchToLobby => some (s.switchToLobby, [])
  | .switchToGame => some (s.switchToGame, [])

def ClientAction.arrival {C : Crypto} : ClientAction C → Arrival
  | .listen arrival .. => arrival
  | _ => none

def ClientAction.seed {C : Crypto} : ClientAction C → Option C.Seed
  | .connect seed => some seed
  | _ => none

def ServerAction.arrival {C : Crypto} : ServerAction C → Arrival
  | .listen arrival .. => arrival
  | _ => none

def ServerAction.seed {C : Crypto} : ServerAction C → Option C.Seed
  | .listen _ seed _ => some seed
  | _ => none

/-- Where the parties are. No two clients share an address. -/
structure Hosts (ι : Type) where
  server : Address
  client : ι → Address
  client_injective : Function.Injective client

structure Datagram where
  source : Address
  destination : Address
  bytes : List UInt8
deriving DecidableEq

/-- A datagram reaches the party it is sent to, a broadcast every party at its port. -/
def Datagram.Reaches (d : Datagram) (a : Address) : Prop :=
  d.destination = a ∨ d.destination.address = inaddrBroadcast ∧ d.destination.port = a.port

instance (d : Datagram) (a : Address) : Decidable (d.Reaches a) :=
  inferInstanceAs (Decidable (_ ∨ _))

/-- One server and its clients. The network has every datagram sent so far. It may deliver
one late, out of order, more than once or never. -/
structure System (C : Crypto) (ι : Type) where
  server : Server C
  clients : ι → Client C
  network : List Datagram

/-- A call on a client or on the server. -/
inductive SystemAction (C : Crypto) (ι : Type) where
  | client (i : ι) (action : ClientAction C)
  | server (action : ServerAction C)

namespace System

variable {C : Crypto} {ι : Type}

def start (C : Crypto) (ι : Type) : System C ι where
  server := Server.create C
  clients := fun _ => {}
  network := []

/-- Only what was sent can arrive, at its destination or, when it was broadcast, at its port. -/
def Arrives (network : List Datagram) (a : Address) : Arrival → Prop
  | none => True
  | some (source, bytes) => ∃ d ∈ network, d.source = source ∧ d.bytes = bytes ∧ d.Reaches a

instance (network : List Datagram) (a : Address) :
    (arrival : Arrival) → Decidable (Arrives network a arrival)
  | none => inferInstanceAs (Decidable True)
  | some (_, _) => inferInstanceAs (Decidable (∃ _ ∈ _, _))

/-- The bytes are a handshake packet with the public key. -/
def Carries (key : C.PublicKey) (bytes : List UInt8) : Prop :=
  written (ConnectionRequestPacket.write { clientPublicKey := key }) = .ok bytes ∨
    written (ChallengePacket.write { serverPublicKey := key }) = .ok bytes

instance (key : C.PublicKey) (bytes : List UInt8) : Decidable (Carries key bytes) :=
  inferInstanceAs (Decidable (_ ∨ _))

/-- Randomness does not repeat: when a call sends the public key of its seed, nobody has sent
that key before. -/
def Fresh (network : List Datagram) (seed : Option C.Seed) (sent : List Outgoing) : Prop :=
  ∀ x ∈ seed, (∃ out ∈ sent, Carries (C.publicKey x) out.bytes) →
    ∀ d ∈ network, ¬ Carries (C.publicKey x) d.bytes

instance (network : List Datagram) (seed : Option C.Seed) (sent : List Outgoing) :
    Decidable (Fresh network seed sent) :=
  inferInstanceAs (Decidable (∀ x ∈ seed, _ → ∀ d ∈ network, ¬ Carries (C.publicKey x) d.bytes))

def post (source : Address) (sent : List Outgoing) : List Datagram :=
  sent.map fun out => ⟨source, out.destination, out.bytes⟩

/-- What a call on a client leaves of the system. -/
def withClient [DecidableEq ι] (sys : System C ι) (hosts : Hosts ι) (i : ι) (c : Client C)
    (sent : List Outgoing) : System C ι :=
  { sys with
    clients := Function.update sys.clients i c
    network := sys.network ++ post (hosts.client i) sent }

def withServer (sys : System C ι) (hosts : Hosts ι) (s : Server C) (sent : List Outgoing) :
    System C ι :=
  { sys with
    server := s
    network := sys.network ++ post hosts.server sent }

def step [DecidableEq ι] (hosts : Hosts ι) (sys : System C ι) :
    SystemAction C ι → Option (System C ι)
  | .client i action =>
    if Arrives sys.network (hosts.client i) action.arrival then
      match (sys.clients i).act action with
      | some (c, sent) =>
        if Fresh sys.network action.seed sent then some (sys.withClient hosts i c sent) else none
      | none => none
    else none
  | .server action =>
    if Arrives sys.network hosts.server action.arrival then
      match sys.server.act action with
      | some (s, sent) =>
        if Fresh sys.network action.seed sent then some (sys.withServer hosts s sent) else none
      | none => none
    else none

end System

end GameNetwork
