import GameNetwork.Buffer
import GameNetwork.Crypto
import GameNetwork.ErrorDetection

namespace GameNetwork

/-- The packet types, and the bytes that name none of them: the source casts any byte. -/
inductive PacketType where
  | invalidPacket
  | connectionRequest
  | challenge
  | challengeResponse
  | connectionAccepted
  | connectionData
  | disconnect
  | other (byte : UInt8)
deriving DecidableEq

namespace PacketType

def toByte : PacketType → UInt8
  | invalidPacket => 0
  | connectionRequest => 1
  | challenge => 2
  | challengeResponse => 3
  | connectionAccepted => 4
  | connectionData => 5
  | disconnect => 6
  | other byte => byte

/-- `static_cast<PacketType>`. -/
def ofByte (byte : UInt8) : PacketType :=
  match byte with
  | 0 => invalidPacket
  | 1 => connectionRequest
  | 2 => challenge
  | 3 => challengeResponse
  | 4 => connectionAccepted
  | 5 => connectionData
  | 6 => disconnect
  | byte => other byte

end PacketType

/-- `Hash::HMAC::SIZE`. -/
def hmacSize : Nat := 32

def minimumHeaderSize : Nat := 4 + 1

def connectionRequestPacketSize (C : Crypto) : Nat := minimumHeaderSize + C.roundedPublicKeySize

def challengePacketSize (C : Crypto) : Nat := minimumHeaderSize + C.roundedPublicKeySize

def challengeResponsePacketSize : Nat := minimumHeaderSize

def connectionAcceptedPacketSize : Nat := minimumHeaderSize + 4

def connectionDataPacketSize : Nat := minimumHeaderSize + 2 + 4

def disconnectPacketSize : Nat := minimumHeaderSize

open Buffer

def verifyPacketHMAC (C : Crypto) (p_key : ShortSharedKey) : BufferM PacketType := do
  let b ← get
  if b.size ≤ hmacSize then return .invalidPacket
  else
    let message ← readBuffer (b.size - hmacSize).toNat
    let hmac ← readBuffer hmacSize
    rewind
    if (C.hmacSha256 p_key message).bytes ≠ hmac then return .invalidPacket
    else
      let id ← readInteger
      if id ≠ protocolId then return .invalidPacket
      else
        let byte ← readByte
        return PacketType.ofByte byte

def verifyPacketCRC : BufferM PacketType := do
  let received ← get
  if received.size ≤ 0 then return .invalidPacket
  else
    let crc ← readInteger
    rewind
    writeInteger protocolId
    let b ← get
    if crc ≠ CRC32.getCRCTableBased (b.data.take b.size.toNat) then return .invalidPacket
    else
      let byte ← readByte
      return PacketType.ofByte byte

/-- `sequenceGreaterThan` for `uint16_t`. Half of the largest value is 32767.5, so both
sides of the comparisons are doubled. -/
def sequenceGreaterThan (p_sequence1 p_sequence2 : UInt16) : Bool :=
  (p_sequence1 > p_sequence2 ∧ 2 * (p_sequence1.toNat - p_sequence2.toNat) ≤ 65535) ∨
    (p_sequence1 < p_sequence2 ∧ 2 * (p_sequence2.toNat - p_sequence1.toNat) > 65535)

/-- The bytes read into the storage behind `Get64BitArray`. -/
def NGMP.ofBytes {nBits : Nat} (bs : List UInt8) : NGMP nBits where
  bytes := (bs ++ List.replicate ((nBits + 7) / 8) 0).take ((nBits + 7) / 8)
  length_eq := by simp

structure ConnectionRequestPacket (C : Crypto) where
  clientPublicKey : C.PublicKey := 0

def ConnectionRequestPacket.write {C : Crypto} (p : ConnectionRequestPacket C) : BufferM Unit := do
  init (connectionRequestPacketSize C)
  writeInteger protocolId
  writeByte PacketType.connectionRequest.toByte
  writeBuffer p.clientPublicKey.bytes
  let crc := CRC32.getCRCTableBased ((← get).data.take (connectionRequestPacketSize C))
  rewind
  writeInteger crc

def ConnectionRequestPacket.read (C : Crypto) : BufferM (ConnectionRequestPacket C) := do
  let bs ← readBuffer C.roundedPublicKeySize
  return { clientPublicKey := NGMP.ofBytes bs }

structure ChallengePacket (C : Crypto) where
  serverPublicKey : C.PublicKey := 0

def ChallengePacket.write {C : Crypto} (p : ChallengePacket C) : BufferM Unit := do
  init (challengePacketSize C)
  writeInteger protocolId
  writeByte PacketType.challenge.toByte
  writeBuffer p.serverPublicKey.bytes
  let crc := CRC32.getCRCTableBased ((← get).data.take (challengePacketSize C))
  rewind
  writeInteger crc

def ChallengePacket.read (C : Crypto) : BufferM (ChallengePacket C) := do
  let bs ← readBuffer C.roundedPublicKeySize
  return { serverPublicKey := NGMP.ofBytes bs }

def ChallengeResponsePacket.write (C : Crypto) (sharedKey : ShortSharedKey) : BufferM Unit := do
  init (challengeResponsePacketSize + hmacSize)
  writeInteger protocolId
  writeByte PacketType.challengeResponse.toByte
  let hmac := C.hmacSha256 sharedKey ((← get).data.take challengeResponsePacketSize)
  writeBuffer hmac.bytes

def ChallengeResponsePacket.read : BufferM Unit := pure ()

structure ConnectionAcceptedPacket where
  clientID : UInt32 := 0
deriving DecidableEq

def ConnectionAcceptedPacket.write (C : Crypto) (p : ConnectionAcceptedPacket)
    (sharedKey : ShortSharedKey) : BufferM Unit := do
  init (connectionAcceptedPacketSize + hmacSize)
  writeInteger protocolId
  writeByte PacketType.connectionAccepted.toByte
  writeInteger p.clientID
  let hmac := C.hmacSha256 sharedKey ((← get).data.take connectionAcceptedPacketSize)
  writeBuffer hmac.bytes

def ConnectionAcceptedPacket.read : BufferM ConnectionAcceptedPacket := do
  let clientID ← readInteger
  return { clientID }

/-- `gameData` points at `gameDataSize` bytes. -/
structure ConnectionDataPacket where
  sequence : UInt16 := 0
  gameDataSize : UInt32 := 0
  gameData : List UInt8 := []
deriving DecidableEq

def ConnectionDataPacket.write (C : Crypto) (p : ConnectionDataPacket)
    (sharedKey : ShortSharedKey) : BufferM Unit := do
  init (connectionDataPacketSize + p.gameDataSize.toNat + hmacSize)
  writeInteger protocolId
  writeByte PacketType.connectionData.toByte
  writeShort p.sequence
  writeInteger p.gameDataSize
  writeBuffer (p.gameData.take p.gameDataSize.toNat)
  let hmac := C.hmacSha256 sharedKey
    ((← get).data.take (uint32 (connectionDataPacketSize + p.gameDataSize.toNat)))
  writeBuffer hmac.bytes

def ConnectionDataPacket.read : BufferM ConnectionDataPacket := do
  let sequence ← readShort
  let gameDataSize ← readInteger
  let gameData ← readBuffer gameDataSize.toNat
  return { sequence, gameDataSize, gameData }

def DisconnectPacket.write (C : Crypto) (sharedKey : ShortSharedKey) : BufferM Unit := do
  init (disconnectPacketSize + hmacSize)
  writeInteger protocolId
  writeByte PacketType.disconnect.toByte
  let hmac := C.hmacSha256 sharedKey ((← get).data.take disconnectPacketSize)
  writeBuffer hmac.bytes

def DisconnectPacket.read : BufferM Unit := pure ()

/-- The bytes a packet leaves for `Send`: a fresh buffer is written, and its `size` bytes
are sent. -/
def written (write : BufferM Unit) : Except Fault (List UInt8) :=
  match write.run {} with
  | .ok _ b => .ok (b.data.take b.size.toNat)
  | .error e _ => .error e

end GameNetwork
