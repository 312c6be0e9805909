import GameNetwork.Lib.Bytes

namespace GameNetwork

namespace CRC32

def polynomial : UInt32 := 0x04C11DB7

def polynomialWidth : UInt32 := 32

def topBit : UInt32 := 1 <<< (polynomialWidth - 1)

def initialRemainder : UInt32 := 0xFFFFFFFF

def finalXorValue : UInt32 := 0xFFFFFFFF

/-- The loop of `ReverseBits`. A 32-bit number is zero after at most 32 shifts, so 32 turns
are enough. -/
def reverseLoop : Nat → UInt32 → UInt32 → UInt32 → UInt32
  | 0, _, reverse, p_nBits => reverse <<< p_nBits
  | turns + 1, p_number, reverse, p_nBits =>
    if p_number = 0 then reverse <<< p_nBits
    else reverseLoop turns (p_number >>> 1) ((reverse <<< 1) ||| (p_number &&& 1)) (p_nBits - 1)

/-- `reverse` starts from the number itself, as in the source. -/
def reverseBits (p_number p_nBits : UInt32) : UInt32 :=
  reverseLoop 32 p_number p_number p_nBits

/-- One turn of the inner loop of `InitTable` and of `GetCRC`. -/
def shiftOut (remainder : UInt32) : UInt32 :=
  if remainder &&& topBit ≠ 0 then (remainder <<< 1) ^^^ polynomial else remainder <<< 1

/-- The entry `InitTable` stores for a dividend. The static table is filled once, before
its first use, and never changes. -/
def table (dividend : UInt8) : UInt32 :=
  shiftOut^[8] (dividend.toUInt32 <<< (polynomialWidth - 8))

def tableStep (remainder : UInt32) (byte : UInt8) : UInt32 :=
  let data := (reverseBits byte.toUInt32 8 ^^^ (remainder >>> (polynomialWidth - 8))).toUInt8
  table data ^^^ (remainder <<< 8)

def getCRCTableBased (p_data : List UInt8) : UInt32 :=
  reverseBits (p_data.foldl tableStep initialRemainder) polynomialWidth ^^^ finalXorValue

/-- One turn of the outer loop of `GetCRC`. -/
def bitStep (remainder : UInt32) (byte : UInt8) : UInt32 :=
  shiftOut^[8] (remainder ^^^ (reverseBits byte.toUInt32 8 <<< (polynomialWidth - 8)))

def getCRC (message : List UInt8) : UInt32 :=
  reverseBits (message.foldl bitStep initialRemainder) polynomialWidth ^^^ finalXorValue

end CRC32

/-- One turn of the loop of `Adler32`. -/
def addAdler (sums : UInt32 × UInt32) (word : UInt16) : UInt32 × UInt32 :=
  let sumA := (sums.1 + word.toUInt32) % 65521
  (sumA, (sums.2 + sumA) % 65521)

def adler32 (p_data : List UInt16) : UInt32 :=
  let sums := p_data.foldl addAdler (1, 0)
  (sums.2 <<< 16) ||| sums.1

/-- One turn of the loop of `Fletcher32`. -/
def addReduced (sums : UInt32 × UInt32) (word : UInt16) : UInt32 × UInt32 :=
  let sumA := (sums.1 + word.toUInt32) % 65535
  (sumA, (sums.2 + sumA) % 65535)

def fletcher32 (p_data : List UInt16) : UInt32 :=
  let sums := p_data.foldl addReduced (0, 0)
  (sums.2 <<< 16) ||| sums.1

/-- The sums of the inner loops of `Fletcher32_improved`, without a reduction. -/
def sumWords (sums : UInt32 × UInt32) (p_data : List UInt16) : UInt32 × UInt32 :=
  p_data.foldl (fun sums word => (sums.1 + word.toUInt32, sums.2 + (sums.1 + word.toUInt32))) sums

def reduceSums (sums : UInt32 × UInt32) : UInt32 × UInt32 :=
  (sums.1 % 65535, sums.2 % 65535)

/-- The outer loop of `Fletcher32_improved`, once for every full block of 360 words. -/
def fletcherBlocks : Nat → UInt32 × UInt32 → List UInt16 → UInt32 × UInt32
  | 0, sums, p_data => reduceSums (sumWords sums p_data)
  | blocks + 1, sums, p_data =>
    fletcherBlocks blocks (reduceSums (sumWords sums (p_data.take 360))) (p_data.drop 360)

/-- `p_size` is the length of `p_data`. -/
def fletcher32Improved (p_data : List UInt16) : UInt32 :=
  let sums := fletcherBlocks (p_data.length / 360) (0, 0) p_data
  (sums.2 <<< 16) ||| sums.1

/-- The text the protocol id is computed from, with its terminating zero. -/
def versionText : List Char :=
  ['N', 'e', 't', 'w', 'o', 'r', 'k', 'P', 'l', 'u', 'g', 'i', 'n', 'V', '1', '.', '0', '.', '0', '\x00']

/-- Characters read as little-endian 16-bit words. -/
def wordsOf : List Char → List UInt16
  | lo :: hi :: rest => UInt16.ofNat (lo.toNat + 256 * hi.toNat) :: wordsOf rest
  | _ => []

/-- `Packet::PROTOCOL_ID`. -/
@[irreducible] def protocolId : UInt32 := fletcher32Improved (wordsOf versionText)

example : protocolId = 0xFEFF3171 := by decide +kernel

example : CRC32.getCRCTableBased [0x31, 0x32, 0x33, 0x34, 0x35, 0x36, 0x37, 0x38, 0x39] = 0xCBF43926 := by
  decide +kernel

end GameNetwork
