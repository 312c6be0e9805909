import GameNetwork.Socket

namespace GameNetwork

/-- The order in which a host keeps the bytes of a number. -/
inductive HostOrder where
  | littleEndian
  | bigEndian

namespace HostOrder

/-- The `n` bytes of a number as they lie in memory. -/
def memory (n v : Nat) : HostOrder → List UInt8
  | littleEndian => (Bytes.be n v).reverse
  | bigEndian => Bytes.be n v

/-- The number that lies in memory. -/
def load (bytes : List UInt8) : HostOrder → Nat
  | littleEndian => Bytes.ofBe bytes.reverse
  | bigEndian => Bytes.ofBe bytes

/-- `htonl`: the number whose bytes lie in network order. -/
def htonl (order : HostOrder) (x : UInt32) : UInt32 :=
  UInt32.ofNat (order.load (Bytes.be 4 x.toNat))

def htons (order : HostOrder) (x : UInt16) : UInt16 :=
  UInt16.ofNat (order.load (Bytes.be 2 x.toNat))

def ntohl (order : HostOrder) (x : UInt32) : UInt32 :=
  UInt32.ofNat (Bytes.ofBe (order.memory 4 x.toNat))

def ntohs (order : HostOrder) (x : UInt16) : UInt16 :=
  UInt16.ofNat (Bytes.ofBe (order.memory 2 x.toNat))

end HostOrder

namespace Address

def getAddress (order : HostOrder) (a : Address) : UInt32 := order.htonl a.address

def getNPort (order : HostOrder) (a : Address) : UInt16 := order.htons a.port

def getA (a : Address) : UInt8 := (a.address >>> 24).toUInt8

def getB (a : Address) : UInt8 := ((a.address >>> 16) &&& 0xFF).toUInt8

def getC (a : Address) : UInt8 := ((a.address >>> 8) &&& 0xFF).toUInt8

def getD (a : Address) : UInt8 := (a.address &&& 0xFF).toUInt8

/-- `std::to_string`. -/
def toStringNat (n : Nat) : List Char := Nat.toDigits 10 n

/-- `Address::ToString`. -/
def toText (a : Address) : List Char :=
  toStringNat a.getA.toNat ++ '.' :: (toStringNat a.getB.toNat ++ '.' ::
    (toStringNat a.getC.toNat ++ '.' :: (toStringNat a.getD.toNat ++ ':' ::
      toStringNat a.port.toNat)))

end Address

/-- The fields of a `SOCKADDR_IN` past its family. -/
structure SockAddrIn where
  port : UInt16
  addr : UInt32

namespace SockAddrIn

/-- The destination that `Send` fills in. -/
def toSend (order : HostOrder) (p_destination : Address) : SockAddrIn where
  port := p_destination.getNPort order
  addr := p_destination.getAddress order

/-- The fields as they lie in memory, which is how they go into the headers of a datagram. -/
def bytes (order : HostOrder) (s : SockAddrIn) : List UInt8 :=
  order.memory 2 s.port.toNat ++ order.memory 4 s.addr.toNat

/-- What `recvfrom` fills in from the headers of a datagram. -/
def received (order : HostOrder) (bytes : List UInt8) : SockAddrIn where
  port := UInt16.ofNat (order.load (bytes.take 2))
  addr := UInt32.ofNat (order.load (bytes.drop 2))

/-- The sender that `Receive` reports. -/
def sender (order : HostOrder) (s : SockAddrIn) : Address where
  address := order.ntohl s.addr
  port := order.ntohs s.port

end SockAddrIn

end GameNetwork
