import GameNetwork.ErrorDetection
import Mathlib.Logic.Function.Basic

namespace GameNetwork

namespace CRC32

/-- The static members that change: the table, zero when the program starts, and
`isTableInit`. -/
structure Statics where
  table : UInt8 → UInt32 := fun _ => 0
  isTableInit : Bool := false

/-- One turn of the outer loop of `InitTable`. -/
def Statics.store (s : Statics) (dividend : UInt8) : Statics :=
  let remainder := shiftOut^[8] (dividend.toUInt32 <<< (polynomialWidth - 8))
  { s with table := Function.update s.table dividend remainder }

/-- One turn of the loop of `GetCRCTableBased`, on the table as it is then. -/
def Statics.tableStep (s : Statics) (remainder : UInt32) (byte : UInt8) : UInt32 :=
  let data := (reverseBits byte.toUInt32 8 ^^^ (remainder >>> (polynomialWidth - 8))).toUInt8
  s.table data ^^^ (remainder <<< 8)

/-- `GetCRCTableBased` when nobody else is at the table. -/
def Statics.getCRCTableBased (s : Statics) (p_data : List UInt8) : UInt32 :=
  reverseBits (p_data.foldl s.tableStep initialRemainder) polynomialWidth ^^^ finalXorValue

/-- A thread that frames or checks a packet: it calls `InitTable`, then `GetCRCTableBased`. -/
inductive Thread where
  | idle
  | initTable (p_data : List UInt8)
  | filling (dividend : Nat) (p_data : List UInt8)
  | summing (remainder : UInt32) (rest p_data : List UInt8)
  | done (crc : UInt32) (p_data : List UInt8)

/-- The threads of a program, with the members they share. -/
structure Program (ι : Type) where
  statics : Statics := {}
  threads : ι → Thread := fun _ => .idle

/-- A thread begins a call, or goes on by one access to the shared members. -/
inductive ThreadAction (ι : Type) where
  | call (i : ι) (p_data : List UInt8)
  | turn (i : ι)

/-- What a thread does next, and to the shared members. -/
def Thread.turn (s : Statics) : Thread → Option (Statics × Thread)
  | .idle => none
  | .initTable p_data =>
    if s.isTableInit then some (s, .summing initialRemainder p_data p_data)
    else some (s, .filling 0 p_data)
  | .filling dividend p_data =>
    if dividend < 256 then some (s.store (UInt8.ofNat dividend), .filling (dividend + 1) p_data)
    else some ({ s with isTableInit := true }, .summing initialRemainder p_data p_data)
  | .summing remainder [] p_data =>
    some (s, .done (reverseBits remainder polynomialWidth ^^^ finalXorValue) p_data)
  | .summing remainder (byte :: rest) p_data =>
    some (s, .summing (s.tableStep remainder byte) rest p_data)
  | .done _ _ => none

def Thread.call (p_data : List UInt8) : Thread → Option Thread
  | .idle | .done _ _ => some (.initTable p_data)
  | _ => none

def Program.step {ι : Type} [DecidableEq ι] (p : Program ι) : ThreadAction ι → Option (Program ι)
  | .call i p_data =>
    ((p.threads i).call p_data).map fun t => { p with threads := Function.update p.threads i t }
  | .turn i =>
    ((p.threads i).turn p.statics).map fun (s, t) =>
      { statics := s, threads := Function.update p.threads i t }

end CRC32

end GameNetwork
