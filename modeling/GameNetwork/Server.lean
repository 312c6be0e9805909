import GameNetwork.Lib.FirstIndex
import GameNetwork.Outcome
import GameNetwork.Packet
import Mathlib.Logic.Function.Basic

namespace GameNetwork

inductive ServerState where
  | lobby
  | game
deriving DecidableEq

/-- `Server::ChallengeInfo`. A valid future is shown by the key its job computes. -/
structure ChallengeInfo (C : Crypto) where
  clientAddress : Address := {}
  clientPublicKey : C.PublicKey := 0
  serverPublicKey : C.PublicKey := 0
  serverPrivateKey : C.PrivateKey := 0
  sharedKeyFuture : Option ShortSharedKey := none
  sharedKey : ShortSharedKey := 0
deriving DecidableEq

/-- `if (challenge.sharedKeyFuture.valid()) challenge.sharedKey = challenge.sharedKeyFuture.get();` -/
def ChallengeInfo.resolved {C : Crypto} (challenge : ChallengeInfo C) : ChallengeInfo C :=
  match challenge.sharedKeyFuture with
  | some key => { challenge with sharedKey := key, sharedKeyFuture := none }
  | none => challenge

/-- `Server::ConnectionInfo`. -/
structure ConnectionInfo where
  clientAddress : Address := {}
  sharedKey : ShortSharedKey := 0
  sequence : UInt16 := 0
deriving DecidableEq

/-- `Server::MAX_CLIENTS`. -/
abbrev maxClients : Nat := 4

instance : NeZero maxClients := ⟨by decide⟩

abbrev Slot := Fin maxClients

/-- An array subscript. -/
def slot (i : Int) : Slot := Fin.ofNat maxClients i.toNat

/-- A truth value converted to `int`. -/
def boolToInt (b : Bool) : Int := if b then 1 else 0

/-- An `int` as it lies in memory, little-endian. -/
def nativeInt (n : Int) : List UInt8 := (Bytes.be 4 (uint32 n)).reverse

structure Server (C : Crypto) where
  challenges : Slot → ChallengeInfo C
  connections : Slot → ConnectionInfo
  connected : Slot → Bool
  challenged : Slot → Bool
  numConnections : Int
  state : ServerState

/-- The address slot 0 holds, the server's own. -/
def ownAddress : Address := Address.ofParts 127 0 0 1 serverPort

namespace Server

variable {C : Crypto}

/-- `Server::Server`. -/
def create (C : Crypto) : Server C where
  challenges := fun _ => {}
  connections := Function.update (fun _ => {}) 0 { clientAddress := ownAddress }
  connected := Function.update (fun _ => false) 0 true
  challenged := fun _ => false
  numConnections := 1
  state := .lobby

def findFreeConnectionIndex (s : Server C) : Int :=
  firstIndex fun i => !s.connected i

def findFreeChallengeIndex (s : Server C) : Int :=
  firstIndex fun i => !s.challenged i

def findExistingConnectionIndex (s : Server C) (p_address : Address) : Int :=
  firstIndex fun i => s.connected i && decide ((s.connections i).clientAddress = p_address)

def findExistingChallengeIndex (s : Server C) (p_address : Address) : Int :=
  firstIndex fun i => s.challenged i && decide ((s.challenges i).clientAddress = p_address)

def getConnectedClientCount (s : Server C) : Int := s.numConnections

def switchToLobby (s : Server C) : Server C := { s with state := .lobby }

def switchToGame (s : Server C) : Server C := { s with state := .game }

def resolveChallenge (s : Server C) (i : Slot) : Server C :=
  { s with challenges := Function.update s.challenges i (s.challenges i).resolved }

/-- Both conditions assign the truth value of the comparison to the index, so the slot
cleared is slot 1 whichever slot was found. -/
def removeClient (s : Server C) (p_address : Address) : Server C :=
  let clientIdx := boolToInt (s.findExistingConnectionIndex p_address > 0)
  if clientIdx ≠ 0 then
    { s with
      connected := Function.update s.connected (slot clientIdx) false
      connections := Function.update s.connections (slot clientIdx) {}
      numConnections := s.numConnections - 1 }
  else
    let challIdx := boolToInt (s.findExistingChallengeIndex p_address ≥ 0)
    if challIdx ≠ 0 then
      { s with
        challenged := Function.update s.challenged (slot challIdx) false
        challenges := Function.update s.challenges (slot challIdx) {} }
    else s

/-- The end of `KickClient`: ten `DISCONNECT`s, then the removal. -/
def sendDisconnects (s : Server C) (p_address : Address) (sharedKey : ShortSharedKey)
    (clientAddress : Address) : Outcome (Server C) Unit :=
  match written (DisconnectPacket.write C sharedKey) with
  | .ok bytes =>
    { self := s.removeClient p_address
      sent := List.replicate 10 ⟨clientAddress, bytes⟩
      result := .ok () }
  | .error e => { self := s, result := .error e }

/-- The destructor calls this; the calls in `CheckForTimeouts` are commented out. -/
def kickClient (s : Server C) (p_address : Address) : Outcome (Server C) Unit :=
  let clientIdx := s.findExistingConnectionIndex p_address
  let clientChallIdx := s.findExistingChallengeIndex p_address
  if clientIdx > 0 then
    let connection := s.connections (slot clientIdx)
    s.sendDisconnects p_address connection.sharedKey connection.clientAddress
  else if clientChallIdx > 0 then
    let s := s.resolveChallenge (slot clientChallIdx)
    let challenge := s.challenges (slot clientChallIdx)
    s.sendDisconnects p_address challenge.sharedKey challenge.clientAddress
  else { self := s, result := .ok () }

/-- The body of the destructor's loop: the client of a slot is kicked, then the challenge. -/
def destroySlot (s : Server C) (i : Slot) : Outcome (Server C) Unit :=
  let kicked : Outcome (Server C) Unit :=
    if s.connected i then s.kickClient (s.connections i).clientAddress
    else { self := s, result := .ok () }
  kicked.andThen fun s =>
    if s.challenged i then s.kickClient (s.challenges i).clientAddress
    else { self := s, result := .ok () }

/-- The destructor's loop over the slots still to come. -/
def destroySlots : List Slot → Server C → Outcome (Server C) Unit
  | [], s => { self := s, result := .ok () }
  | i :: is, s => (s.destroySlot i).andThen (destroySlots is)

/-- `Server::~Server`. The socket is closed after the loop. -/
def destroy (s : Server C) : Outcome (Server C) Unit := destroySlots [0, 1, 2, 3] s

/-- The end of `HandlePacket(ConnectionRequestPacket)`: the key job is started and the
challenge is sent. The job computes from the keys stored in the slot: its lambda captures the
index by reference, and is taken to read it before the handler returns. -/
def sendChallenge (s : Server C) (challIndex : Slot) (p_sender : Address) :
    Outcome (Server C) Unit :=
  let challenge := s.challenges challIndex
  let s := { s with
    challenges := Function.update s.challenges challIndex { challenge with
      sharedKeyFuture := some
        (C.sessionKey challenge.clientPublicKey challenge.serverPrivateKey) } }
  match written (ChallengePacket.write { serverPublicKey := challenge.serverPublicKey }) with
  | .ok bytes => { self := s, sent := [⟨p_sender, bytes⟩], result := .ok () }
  | .error e => { self := s, result := .error e }

/-- `challIndex = FindFreeChallengeIndex() >= 0` assigns the truth value of the comparison,
so a new challenge goes to slot 1 whichever slot is free. -/
def handlePacketConnectionRequest (s : Server C) (p_packet : ConnectionRequestPacket C)
    (p_sender : Address) (seed : C.Seed) : Outcome (Server C) Unit :=
  let challIndex := s.findExistingChallengeIndex p_sender
  if challIndex < 0 then
    let challIndex := boolToInt (s.findFreeChallengeIndex ≥ 0)
    if challIndex ≠ 0 then
      let s := { s with
        challenges := Function.update s.challenges (slot challIndex)
          { clientAddress := p_sender
            clientPublicKey := p_packet.clientPublicKey
            serverPrivateKey := C.privateKey seed
            serverPublicKey := C.publicKey seed }
        challenged := Function.update s.challenged (slot challIndex) true }
      s.sendChallenge (slot challIndex) p_sender
    else { self := s, result := .ok () }
  else s.sendChallenge (slot challIndex) p_sender

def handlePacketChallengeResponse (s : Server C) (p_sender : Address) :
    Outcome (Server C) Unit :=
  let challengeIndex := s.findExistingChallengeIndex p_sender
  if challengeIndex ≥ 0 then
    let newClientIndex := s.findFreeConnectionIndex
    let s := s.resolveChallenge (slot challengeIndex)
    let challenge := s.challenges (slot challengeIndex)
    if newClientIndex > -1 then
      let s := { s with
        connected := Function.update s.connected (slot newClientIndex) true
        connections := Function.update s.connections (slot newClientIndex)
          { clientAddress := challenge.clientAddress, sharedKey := challenge.sharedKey }
        numConnections := s.numConnections + 1
        challenged := Function.update s.challenged (slot challengeIndex) false
        challenges := Function.update s.challenges (slot challengeIndex) {} }
      match written (ConnectionAcceptedPacket.write C
          { clientID := UInt32.ofNat (uint32 newClientIndex) }
          (s.connections (slot newClientIndex)).sharedKey) with
      | .ok bytes => { self := s, sent := [⟨p_sender, bytes⟩], result := .ok () }
      | .error e => { self := s, result := .error e }
    else { self := s, result := .ok () }
  else { self := s, result := .ok () }

/-- Which table the sender is in decides how its datagram is verified. The value `none` is
the early `return 0`. -/
def verifySender (s : Server C) (sender : Address) (buffer : Buffer) :
    Server C × EStateM.Result Fault Buffer (Option PacketType) :=
  let connectionIndex := s.findExistingConnectionIndex sender
  if connectionIndex > 0 then
    (s, (some <$> verifyPacketHMAC C (s.connections (slot connectionIndex)).sharedKey).run buffer)
  else
    let challengeIndex := s.findExistingChallengeIndex sender
    if challengeIndex < 0 then
      (s, (do
        let packetType ← verifyPacketCRC
        if packetType ≠ .connectionRequest then return none
        else return some .connectionRequest : BufferM (Option PacketType)).run buffer)
    else
      let s := s.resolveChallenge (slot challengeIndex)
      (s, (some <$> verifyPacketHMAC C (s.challenges (slot challengeIndex)).sharedKey).run buffer)

/-- `return` with nothing sent. -/
def returns (s : Server C) (ret : Int) : Outcome (Server C) Listened :=
  { self := s, result := .ok { ret } }

def throws (s : Server C) (fault : Fault) : Outcome (Server C) Listened :=
  { self := s, result := .error fault }

/-- The `switch` over the packet type. `CheckForTimeouts` has no code in it. -/
def dispatch (s : Server C) (packetType : PacketType) (sender : Address) (buffer : Buffer)
    (seed : C.Seed) (p_size : UInt32) : Outcome (Server C) Listened :=
  match packetType with
  | .connectionRequest =>
    if s.state = .lobby then
      match (ConnectionRequestPacket.read C).run buffer with
      | .ok packet _ => (s.handlePacketConnectionRequest packet sender seed).returning { ret := 0 }
      | .error fault _ => s.throws fault
    else s.returns 0
  | .challengeResponse =>
    if s.state = .lobby then
      match ChallengeResponsePacket.read.run buffer with
      | .ok _ _ => (s.handlePacketChallengeResponse sender).returning { ret := 0 }
      | .error fault _ => s.throws fault
    else s.returns 0
  | .connectionData =>
    if s.state = .game then
      match ConnectionDataPacket.read.run buffer with
      | .ok packet buffer =>
        let clientIdx := s.findExistingConnectionIndex sender
        if clientIdx > 0 then
          if sizeT (int32 p_size.toNat) ≥ sizeT buffer.size + 4 then
            { self := s
              result := .ok {
                ret := int32 packet.gameDataSize.toNat
                gameData := some (nativeInt clientIdx ++ packet.gameData) } }
          else s.returns (-1)
        else s.returns 0
      | .error fault _ => s.throws fault
    else s.returns 0
  | .disconnect =>
    match DisconnectPacket.read.run buffer with
    | .ok _ _ =>
      if s.findExistingConnectionIndex sender > 0 ∨ s.findExistingChallengeIndex sender > 0 then
        (s.removeClient sender).returns 0
      else s.returns 0
    | .error fault _ => s.throws fault
  | _ => s.returns 0

/-- One call to `Listen`. A caller's `o_gameData` has room for `p_size` bytes; the seed is
drawn if a key pair is generated. -/
def listen (s : Server C) (arrival : Arrival) (seed : C.Seed) (p_size : UInt32) :
    Outcome (Server C) Listened :=
  let received := receiveBuffer arrival {}
  let verified := s.verifySender received.1 received.2
  let body := match verified.2 with
    | .ok (some packetType) buffer =>
      verified.1.dispatch packetType received.1 buffer seed p_size
    | .ok none _ => verified.1.returns 0
    | .error fault _ => verified.1.throws fault
  body.catchStd { ret := 0 }

/-- The loop body of `PropagateGameData` over the slots still to come. -/
def propagateSlots (data : GameData) : List Slot → Server C → Outcome (Server C) Unit
  | [], s => { self := s, result := .ok () }
  | i :: is, s =>
    if s.connected i then
      let info := { s.connections i with sequence := (s.connections i).sequence + 1 }
      let s := { s with connections := Function.update s.connections i info }
      match written (ConnectionDataPacket.write C
          ⟨info.sequence, UInt32.ofNat data.bytes.length, data.bytes⟩ info.sharedKey) with
      | .ok bytes => (propagateSlots data is s).after [⟨info.clientAddress, bytes⟩]
      | .error e => { self := s, result := .error e }
    else propagateSlots data is s

def propagateGameData (s : Server C) (data : GameData) : Outcome (Server C) Unit :=
  propagateSlots data [1, 2, 3] s

end Server

/-- A call the application makes on the server. -/
inductive ServerAction (C : Crypto) where
  | listen (arrival : Arrival) (seed : C.Seed) (p_size : UInt32)
  | propagateGameData (data : GameData)
  | switchToLobby
  | switchToGame

def Server.step {C : Crypto} (s : Server C) : ServerAction C → Option (Server C)
  | .listen arrival seed p_size => (s.listen arrival seed p_size).next
  | .propagateGameData data => (s.propagateGameData data).next
  | .switchToLobby => some s.switchToLobby
  | .switchToGame => some s.switchToGame

end GameNetwork
