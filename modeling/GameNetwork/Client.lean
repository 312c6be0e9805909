import GameNetwork.Outcome
import GameNetwork.Packet

namespace GameNetwork

inductive ClientState where
  | disconnected
  | sendingRequest
  | sendingChallengeResponse
  | connected
deriving DecidableEq

/-- `respondThreads` counts the detached threads that have not run `RespondChallenge` yet.
Clock readings are nanoseconds since the epoch of the clock. -/
structure Client (C : Crypto) where
  privateKey : C.PrivateKey := 0
  publicKey : C.PublicKey := 0
  sharedKey : ShortSharedKey := 0
  serverAddress : Address := {}
  index : Int := -1
  state : ClientState := .disconnected
  lastReceivedPacket : Int := 0
  sequence : UInt16 := 0
  ack : UInt16 := 0
  activeTimeout : Bool := false
  respondThreads : Nat := 0

/-- The `5s` of the timeout. -/
def timeoutTime : Int := 5000000000

/-- Where `Connect` sends its request. -/
def broadcastAddress : Address := { address := inaddrBroadcast, port := serverPort }

namespace Client

variable {C : Crypto}

/-- `Client::Disconnect`. -/
def disconnect (c : Client C) : Client C :=
  { c with sharedKey := 0, serverAddress := {}, state := .disconnected }

def connect (c : Client C) (seed : C.Seed) : Outcome (Client C) Unit :=
  let body : Outcome (Client C) Unit :=
    if c.state = .disconnected then
      let c := { c with privateKey := C.privateKey seed, publicKey := C.publicKey seed }
      match written (ConnectionRequestPacket.write { clientPublicKey := c.publicKey }) with
      | .ok bytes =>
        { self := { c with state := .sendingRequest }
          sent := [⟨broadcastAddress, bytes⟩]
          result := .ok () }
      | .error e => { self := c, result := .error e }
    else { self := c, result := .ok () }
  body.catchStd ()

/-- The body of the detached thread. It is taken to run between two calls, as a whole, so never
between the two places where `Listen` reads the state. -/
def respondChallenge (c : Client C) : Outcome (Client C) Unit :=
  let body : Outcome (Client C) Unit :=
    match written (ChallengeResponsePacket.write C c.sharedKey) with
    | .ok bytes =>
      { self := { c with state := .sendingChallengeResponse }
        sent := [⟨c.serverAddress, bytes⟩]
        result := .ok () }
    | .error e => { self := c, result := .error e }
  body.catchStd ()

def sendDisconnect (c : Client C) : Outcome (Client C) Unit :=
  let body : Outcome (Client C) Unit :=
    if c.state ≠ .disconnected ∧ c.state ≠ .sendingRequest then
      match written (DisconnectPacket.write C c.sharedKey) with
      | .ok bytes =>
        { self := c.disconnect
          sent := List.replicate 10 ⟨c.serverAddress, bytes⟩
          result := .ok () }
      | .error e => { self := c, result := .error e }
    else { self := c.disconnect, result := .ok () }
  body.catchStd ()

/-- `Client::~Client`. The socket is closed after the `DISCONNECT`s. -/
def destroy (c : Client C) : Outcome (Client C) Unit :=
  if c.state = .connected then c.sendDisconnect else { self := c, result := .ok () }

def handlePacketChallenge (c : Client C) (p_packet : ChallengePacket C) : Client C :=
  { c with
    sharedKey := C.sessionKey p_packet.serverPublicKey c.privateKey
    respondThreads := c.respondThreads + 1 }

def handlePacketConnectionAccepted (c : Client C) (p_packet : ConnectionAcceptedPacket) :
    Client C :=
  { c with index := int32 p_packet.clientID.toNat, state := .connected }

/-- The state decides how a datagram is verified. -/
def verify (c : Client C) : BufferM PacketType :=
  if c.state = .disconnected ∨ c.state = .sendingRequest then verifyPacketCRC
  else verifyPacketHMAC C c.sharedKey

/-- The `switch` over the packet type. A value `none` leaves the switch, any other is what
it returns. `CONNECTION_DATA` outside `CONNECTED` has no `break` and runs on into the
`DISCONNECT` case. -/
def dispatch (c : Client C) (packetType : PacketType) (buffer : Buffer) (p_size : UInt32) :
    Client C × Except Fault (Option Listened) :=
  match packetType with
  | .challenge =>
    if c.state = .sendingRequest then
      match (ChallengePacket.read C).run buffer with
      | .ok packet _ => (c.handlePacketChallenge packet, .ok none)
      | .error fault _ => (c, .error fault)
    else (c, .ok none)
  | .connectionAccepted =>
    if c.state = .sendingChallengeResponse then
      match ConnectionAcceptedPacket.read.run buffer with
      | .ok packet _ => (c.handlePacketConnectionAccepted packet, .ok none)
      | .error fault _ => (c, .error fault)
    else (c, .ok none)
  | .connectionData =>
    if c.state = .connected then
      match ConnectionDataPacket.read.run buffer with
      | .ok packet _ =>
        if sequenceGreaterThan packet.sequence c.ack then
          let c := { c with ack := packet.sequence }
          if uint32 (int32 p_size.toNat) ≥ packet.gameDataSize.toNat then
            (c, .ok (some { ret := int32 packet.gameDataSize.toNat
                            gameData := some packet.gameData }))
          else (c, .ok (some { ret := -1 }))
        else (c, .ok (some { ret := 0 }))
      | .error fault _ => (c, .error fault)
    else if c.state ≠ .disconnected then (c.disconnect, .ok none)
    else (c, .ok none)
  | .disconnect =>
    if c.state ≠ .disconnected then (c.disconnect, .ok none)
    else (c, .ok none)
  | _ => (c, .ok none)

/-- The end of `Listen`. -/
def checkTimeout (c : Client C) (now : Int) : Outcome (Client C) Listened :=
  if c.activeTimeout ∧ c.state = .connected ∧ now - c.lastReceivedPacket > timeoutTime then
    c.sendDisconnect.returning { ret := 0 }
  else { self := c, result := .ok { ret := 0 } }

/-- One call to `Listen`, which may read the clock twice. A caller's `o_gameData` has room
for `p_size` bytes. Nothing is caught here. -/
def listen (c : Client C) (arrival : Arrival) (p_size : UInt32) (received now : Int) :
    Outcome (Client C) Listened :=
  let filled := receiveBuffer arrival c.serverAddress
  let c := { c with serverAddress := filled.1 }
  match c.verify.run filled.2 with
  | .error fault _ => { self := c, result := .error fault }
  | .ok packetType buffer =>
    let c := if packetType ≠ .invalidPacket then { c with lastReceivedPacket := received } else c
    match c.dispatch packetType buffer p_size with
    | (c, .error fault) => { self := c, result := .error fault }
    | (c, .ok (some listened)) => { self := c, result := .ok listened }
    | (c, .ok none) => c.checkTimeout now

/-- `sent` tells whether `sendto` reports the whole datagram sent. -/
def sendGameData (c : Client C) (data : GameData) (sent : Bool) : Outcome (Client C) Bool :=
  if c.state = .connected then
    let c := { c with sequence := c.sequence + 1 }
    match written (ConnectionDataPacket.write C
        ⟨c.sequence, UInt32.ofNat data.bytes.length, data.bytes⟩ c.sharedKey) with
    | .ok bytes => { self := c, sent := [⟨c.serverAddress, bytes⟩], result := .ok sent }
    | .error e => { self := c, result := .error e }
  else { self := c, result := .ok false }

def setActiveTimeout (c : Client C) (p_value : Bool) : Client C :=
  { c with activeTimeout := p_value }

end Client

/-- A call the application makes on a client, or the start of a waiting thread. -/
inductive ClientAction (C : Crypto) where
  | connect (seed : C.Seed)
  | respondChallenge
  | sendDisconnect
  | listen (arrival : Arrival) (p_size : UInt32) (received now : Int)
  | sendGameData (data : GameData) (sent : Bool)
  | setActiveTimeout (p_value : Bool)

namespace Client

variable {C : Crypto}

/-- A waiting thread runs. -/
def runThread (c : Client C) : Option (Outcome (Client C) Unit) :=
  match c.respondThreads with
  | 0 => none
  | n + 1 => some ({ c with respondThreads := n } : Client C).respondChallenge

def step (c : Client C) : ClientAction C → Option (Client C)
  | .connect seed => (c.connect seed).next
  | .respondChallenge => c.runThread.bind Outcome.next
  | .sendDisconnect => c.sendDisconnect.next
  | .listen arrival p_size received now => (c.listen arrival p_size received now).next
  | .sendGameData data sent => (c.sendGameData data sent).next
  | .setActiveTimeout p_value => some (c.setActiveTimeout p_value)

end Client

end GameNetwork
