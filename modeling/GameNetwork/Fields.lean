import GameNetwork.Buffer

namespace GameNetwork

/-- What one `Write` call puts into a buffer, or one `Read` call takes out. -/
inductive Field where
  | longLong (p_value : UInt64)
  | integer (p_value : UInt32)
  | short (p_value : UInt16)
  | byte (p_value : UInt8)
  | bytes (p_buffer : List UInt8)
deriving DecidableEq

inductive FieldType where
  | longLong
  | integer
  | short
  | byte
  | bytes (p_size : UInt32)
deriving DecidableEq

open Buffer

def Field.write : Field → BufferM Unit
  | longLong p_value => writeLongLong p_value
  | integer p_value => writeInteger p_value
  | short p_value => writeShort p_value
  | byte p_value => writeByte p_value
  | bytes p_buffer => writeBuffer p_buffer

def FieldType.read : FieldType → BufferM Field
  | longLong => .longLong <$> readLongLong
  | integer => .integer <$> readInteger
  | short => .short <$> readShort
  | byte => .byte <$> readByte
  | bytes p_size => .bytes <$> readBuffer p_size.toNat

/-- The bytes of a field in a buffer. -/
def Field.encoded : Field → List UInt8
  | longLong p_value => Bytes.be 8 p_value.toNat
  | integer p_value => Bytes.be 4 p_value.toNat
  | short p_value => Bytes.be 2 p_value.toNat
  | byte p_value => [p_value]
  | bytes p_buffer => p_buffer

def FieldType.decoded : FieldType → List UInt8 → Field
  | longLong, bs => .longLong (UInt64.ofNat (Bytes.ofBe bs))
  | integer, bs => .integer (UInt32.ofNat (Bytes.ofBe bs))
  | short, bs => .short (UInt16.ofNat (Bytes.ofBe bs))
  | byte, bs => .byte (UInt8.ofNat (Bytes.ofBe bs))
  | bytes _, bs => .bytes bs

def FieldType.size : FieldType → Nat
  | longLong => 8
  | integer => 4
  | short => 2
  | byte => 1
  | bytes p_size => p_size.toNat

/-- The read that matches a field. -/
def Field.type : Field → FieldType
  | longLong _ => .longLong
  | integer _ => .integer
  | short _ => .short
  | byte _ => .byte
  | bytes p_buffer => .bytes (UInt32.ofNat p_buffer.length)

/-- Fields written one after the other. -/
def writeFields : List Field → BufferM Unit
  | [] => pure ()
  | field :: fields => do
    field.write
    writeFields fields

def readFields : List FieldType → BufferM (List Field)
  | [] => pure []
  | type :: types => do
    let field ← type.read
    let fields ← readFields types
    pure (field :: fields)

/-- The bytes of several fields. -/
def encodedFields (fields : List Field) : List UInt8 := fields.flatMap Field.encoded

def decodedFields : List FieldType → List UInt8 → List Field
  | [], _ => []
  | type :: types, bs => type.decoded (bs.take type.size) :: decodedFields types (bs.drop type.size)

/-- A call on a buffer. -/
inductive BufferCall where
  | write (field : Field)
  | read (type : FieldType)
deriving DecidableEq

namespace BufferCall

/-- The number of bytes the call is about. -/
def size : BufferCall → Nat
  | write field => field.encoded.length
  | read type => type.size

def run : BufferCall → BufferM (Option Field)
  | write field => do
    field.write
    return none
  | read type => some <$> type.read

end BufferCall

/-- What a call leaves for the next one. An exception leaves the buffer as it is then. -/
def Buffer.step (b : Buffer) (call : BufferCall) : Option Buffer :=
  match call.run.run b with
  | .ok _ b' => some b'
  | .error .undefinedBehaviour _ => none
  | .error _ b' => some b'

end GameNetwork
