import GameNetwork.Buffer

namespace GameNetwork

/-- A `float` by its 32 bits. -/
abbrev FloatBits := UInt32

/-- What the platform does with floats: the two conversions of Winsock, and `static_cast<float>`
of an `unsigned int`. -/
structure FloatPlatform where
  htonf : FloatBits → UInt32
  ntohf : UInt32 → FloatBits
  toFloat : UInt32 → FloatBits

/-- A `float` as it lies in memory, little-endian. -/
def nativeFloat (x : FloatBits) : List UInt8 := (Bytes.be 4 x.toNat).reverse

namespace Buffer

/-- The guard `index + sizeof(float) > size`, in `size_t`. -/
def checkRoomSizeT (n : Nat) (what : String) : BufferM Unit := do
  let b ← get
  if sizeT b.size < sizeT (b.index + n) then throw (.outOfRange what) else pure ()

def writeFloat (platform : FloatPlatform) (p_value : FloatBits) : BufferM Unit := do
  checkRoomSizeT 4 writeText
  store (nativeFloat (platform.toFloat (platform.htonf p_value)))

/-- The pointer is cast to `uint8_t*`, so one byte is loaded. `index` moves by four. -/
def readFloat (platform : FloatPlatform) : BufferM FloatBits := do
  checkRoomSizeT 4 readText
  let res ← load 1
  modify fun b => { b with index := b.index + 3 }
  return platform.ntohf (UInt32.ofNat (Bytes.ofBe res))

end Buffer

end GameNetwork
