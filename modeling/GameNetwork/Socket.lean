import GameNetwork.Buffer

namespace GameNetwork

/-- An IPv4 address and port, in host byte order. `Send` and `Receive` convert to and from
network order at the socket, so the order on the wire never shows. -/
structure Address where
  address : UInt32 := 0
  port : UInt16 := 0
deriving DecidableEq

def Address.ofParts (p_a p_b p_c p_d : UInt8) (p_port : UInt16) : Address where
  address := (p_a.toUInt32 <<< 24) ||| (p_b.toUInt32 <<< 16) ||| (p_c.toUInt32 <<< 8) ||| p_d.toUInt32
  port := p_port

/-- `Server::SERVER_PORT` and `Client::SERVER_PORT`. -/
def serverPort : UInt16 := 8755

/-- `INADDR_BROADCAST`. -/
def inaddrBroadcast : UInt32 := 0xFFFFFFFF

/-- A datagram handed to `sendto`. -/
structure Outgoing where
  destination : Address
  bytes : List UInt8
deriving DecidableEq

/-- What `recvfrom` finds in the queue: nothing, or a datagram and its source. -/
abbrev Arrival := Option (Address × List UInt8)

/-- The size of the buffer both `Listen` functions receive into. -/
def receiveSize : Nat := 1024

/-- `Socket::Receive` into a buffer of `p_size` bytes. A datagram longer than the buffer
makes `recvfrom` fail; a failed receive leaves `o_sender` alone and returns -1. -/
def Socket.receive (arrival : Arrival) (o_sender : Address) (o_data : List UInt8)
    (p_size : Nat) : Address × List UInt8 × Int :=
  match arrival with
  | none => (o_sender, o_data, -1)
  | some (source, bytes) =>
    if bytes.length ≤ p_size then (source, bytes ++ o_data.drop bytes.length, bytes.length)
    else (o_sender, bytes.take p_size, -1)

/-- The first lines of both `Listen` functions: a fresh buffer is filled, and its size is
set to what was received. -/
def receiveBuffer (arrival : Arrival) (o_sender : Address) : Address × Buffer :=
  let received := Socket.receive arrival o_sender (List.replicate receiveSize 0) receiveSize
  (received.1, { data := received.2.1, size := received.2.2, index := 0 })

theorem receiveBuffer_some {source o_sender : Address} {d : List UInt8}
    (h : d.length ≤ receiveSize) :
    receiveBuffer (some (source, d)) o_sender =
      (source, Buffer.view d (List.replicate (receiveSize - d.length) 0) 0) := by
  simp [receiveBuffer, Socket.receive, h, Buffer.view]

/-- A failed receive leaves a buffer of size -1. -/
theorem receiveBuffer_failed {arrival : Arrival} (o_sender : Address)
    (h : ∀ source d, arrival = some (source, d) → receiveSize < d.length) :
    (receiveBuffer arrival o_sender).1 = o_sender ∧
      (receiveBuffer arrival o_sender).2.size = -1 := by
  cases arrival with
  | none => exact ⟨rfl, rfl⟩
  | some p =>
    have hlt : ¬ p.2.length ≤ receiveSize := by have := h p.1 p.2 rfl; omega
    simp [receiveBuffer, Socket.receive, hlt]

/-- A receive fails, or brings a datagram that fits the buffer. -/
theorem receive_cases (arrival : Arrival) :
    (∀ source d, arrival = some (source, d) → receiveSize < d.length) ∨
      ∃ source d, arrival = some (source, d) ∧ d.length ≤ receiveSize := by
  by_cases h : ∀ source d, arrival = some (source, d) → receiveSize < d.length
  · exact .inl h
  · push Not at h
    exact .inr h

/-- A datagram that does not fit is a failed receive. -/
theorem receive_oversized (source : Address) {d : List UInt8} (hd : receiveSize < d.length) :
    ∀ a e, some (source, d) = some (a, e) → receiveSize < e.length := by
  intro a e h
  cases h
  exact hd

end GameNetwork
