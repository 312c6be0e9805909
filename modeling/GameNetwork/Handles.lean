import GameNetwork.Socket
import Mathlib.Logic.Function.Basic

namespace GameNetwork

/-- A `SOCKET`. `INVALID_SOCKET` is no handle. -/
abbrev Handle := Nat

/-- What the system answers to the calls `Open` makes. -/
structure OpenCalls where
  socket : Option Handle
  setsockopt : Bool
  bind : Bool
  ioctlsocket : Bool

structure Socket where
  handle : Option Handle := none
deriving DecidableEq

namespace Socket

def isOpen (s : Socket) : Bool := s.handle.isSome

/-- `Socket::Open`. The handle is kept whichever of the calls after `socket` fails. -/
def «open» (calls : OpenCalls) : Socket × Bool :=
  match calls.socket with
  | none => ({ handle := none }, false)
  | some handle =>
    let s : Socket := { handle := some handle }
    if !calls.setsockopt then (s, false)
    else if !calls.bind then (s, false)
    else if !calls.ioctlsocket then (s, false)
    else (s, true)

/-- `Socket::Close`. -/
def close (s : Socket) (closesocket : Bool) : Socket × Bool :=
  match s.handle with
  | none => (s, true)
  | some _ => if closesocket then ({ handle := none }, true) else (s, false)

/-- `Socket::~Socket`, up to the end of the object. -/
def destroy (s : Socket) (closesocket : Bool) : Socket :=
  if s.isOpen then (s.close closesocket).1 else s

end Socket

/-- The sockets of a program, and the handles the system has given it and not taken back. -/
structure Handles (ι : Type) where
  sockets : ι → Option Socket := fun _ => none
  held : List Handle := []

inductive HandleAction (ι : Type) where
  | create (i : ι)
  | «open» (i : ι) (calls : OpenCalls)
  | close (i : ι) (closesocket : Bool)
  | destroy (i : ι) (closesocket : Bool)

namespace Handles

variable {ι : Type} [DecidableEq ι]

/-- The handle of a socket, if it exists and has one. -/
def owner (p : Handles ι) (i : ι) : Option Handle := (p.sockets i).bind Socket.handle

/-- A socket gives its handle up where `closesocket` has taken it back, and nowhere else. -/
def takenBack (s closed : Socket) (held : List Handle) : List Handle :=
  match s.handle with
  | none => held
  | some handle => if closed.isOpen then held else held.erase handle

/-- The system gives out no handle that is in use. -/
def step (p : Handles ι) : HandleAction ι → Option (Handles ι)
  | .create i =>
    match p.sockets i with
    | none => some { p with sockets := Function.update p.sockets i (some {}) }
    | some _ => none
  | .open i calls =>
    match p.sockets i with
    | none => none
    | some _ =>
      if calls.socket.any (· ∈ p.held) then none
      else some
        { sockets := Function.update p.sockets i (some (Socket.open calls).1)
          held := calls.socket.toList ++ p.held }
  | .close i closesocket =>
    (p.sockets i).map fun s =>
      let closed := (s.close closesocket).1
      { sockets := Function.update p.sockets i (some closed)
        held := takenBack s closed p.held }
  | .destroy i closesocket =>
    (p.sockets i).map fun s =>
      { sockets := Function.update p.sockets i none
        held := takenBack s (s.destroy closesocket) p.held }

end Handles

end GameNetwork
