import GameNetwork.Lib.Bytes

namespace GameNetwork

/-- How a call can end other than by returning. An access outside an allocation has no
defined outcome in C++; it is kept apart from what the code throws. -/
inductive Fault where
  | outOfRange (what : String)
  | alreadyInitialized (what : String)
  | undefinedBehaviour
deriving DecidableEq

/-- The `catch(std::exception& e)` clauses. `Buffer::Init` throws a pointer, which they
do not match. -/
def Fault.isStdException : Fault → Bool
  | .outOfRange _ => true
  | _ => false

/-- A value converted to `int`. -/
def int32 (n : Int) : Int := n.bmod (2 ^ 32)

/-- A value converted to `unsigned int`. -/
def uint32 (n : Int) : Nat := (n % 2 ^ 32).toNat

/-- A value converted to `size_t`. -/
def sizeT (n : Int) : Nat := (n % 2 ^ 64).toNat

/-- `data` is the allocation, empty for a null pointer. -/
structure Buffer where
  data : List UInt8 := []
  size : Int := 0
  index : Nat := 0
deriving DecidableEq

abbrev BufferM := EStateM Fault Buffer

namespace Buffer

def writeText : String := "Trying to write out of buffer"

def readText : String := "Trying to read out of buffer"

/-- Memory from `new uint8_t[n]` is shown as zeros; nothing reads it before it is written. -/
def init (p_size : Nat) : BufferM Unit := do
  let b ← get
  if b.data ≠ [] then throw (.alreadyInitialized "Buffer already initialized")
  else if 0 < uint32 p_size then
    set ({ data := List.replicate (uint32 p_size) 0, size := int32 p_size, index := 0 } : Buffer)
  else pure ()

/-- The guard `index + n > size`, in `int`. -/
def checkRoom (n : Nat) (what : String) : BufferM Unit := do
  let b ← get
  if b.size < int32 (b.index + n) then throw (.outOfRange what) else pure ()

/-- The guard `index + p_size > static_cast<unsigned>(size)`, in `unsigned int`. -/
def checkRoomUnsigned (p_size : Nat) (what : String) : BufferM Unit := do
  let b ← get
  if uint32 b.size < uint32 (b.index + p_size) then throw (.outOfRange what) else pure ()

/-- A store at `data + index`, which then moves on by what was stored. -/
def store (bs : List UInt8) : BufferM Unit := do
  let b ← get
  if b.index + bs.length ≤ b.data.length then
    set { b with
      data := b.data.take b.index ++ bs ++ b.data.drop (b.index + bs.length)
      index := b.index + bs.length }
  else throw .undefinedBehaviour

/-- A load of `n` bytes at `data + index`, which then moves on by `n`. -/
def load (n : Nat) : BufferM (List UInt8) := do
  let b ← get
  if b.index + n ≤ b.data.length then
    set { b with index := b.index + n }
    pure ((b.data.drop b.index).take n)
  else throw .undefinedBehaviour

def writeLongLong (p_value : UInt64) : BufferM Unit := do
  checkRoom 8 writeText
  store (Bytes.be 8 p_value.toNat)

def writeInteger (p_value : UInt32) : BufferM Unit := do
  checkRoom 4 writeText
  store (Bytes.be 4 p_value.toNat)

def writeShort (p_value : UInt16) : BufferM Unit := do
  checkRoom 2 writeText
  store (Bytes.be 2 p_value.toNat)

def writeByte (p_value : UInt8) : BufferM Unit := do
  checkRoom 1 writeText
  store [p_value]

/-- The loop of `WriteBuffer`. -/
def writeBytes : List UInt8 → BufferM Unit
  | [] => pure ()
  | b :: bs => do
    store [b]
    writeBytes bs

/-- `p_size` is the length of `p_buffer`. -/
def writeBuffer (p_buffer : List UInt8) : BufferM Unit := do
  checkRoomUnsigned p_buffer.length writeText
  writeBytes p_buffer

def readLongLong : BufferM UInt64 := do
  checkRoom 8 readText
  return UInt64.ofNat (Bytes.ofBe (← load 8))

def readInteger : BufferM UInt32 := do
  checkRoom 4 readText
  return UInt32.ofNat (Bytes.ofBe (← load 4))

def readShort : BufferM UInt16 := do
  checkRoom 2 readText
  return UInt16.ofNat (Bytes.ofBe (← load 2))

def readByte : BufferM UInt8 := do
  checkRoom 1 readText
  return UInt8.ofNat (Bytes.ofBe (← load 1))

/-- The loop of `ReadBuffer`. -/
def readBytes : Nat → BufferM (List UInt8)
  | 0 => pure []
  | n + 1 => do
    let b ← load 1
    let bs ← readBytes n
    pure (b ++ bs)

def readBuffer (p_size : Nat) : BufferM (List UInt8) := do
  checkRoomUnsigned p_size readText
  readBytes p_size

/-- `p_buffer.index = 0`. -/
def rewind : BufferM Unit := modify fun b => { b with index := 0 }

/-- The allocation begins with the bytes `d` that `size` covers; `rest` lies behind them. -/
def view (d rest : List UInt8) (i : Nat) : Buffer :=
  { data := d ++ rest, size := d.length, index := i }

end Buffer

/-- Running past a call that returns. -/
theorem ok_bind {α β : Type} {x : BufferM α} {f : α → BufferM β} {b b' : Buffer} {a : α}
    (h : x.run b = .ok a b') : (x >>= f).run b = (f a).run b' := by
  rw [EStateM.run_bind, h]

theorem ok_map {α β : Type} {x : BufferM α} {f : α → β} {b b' : Buffer} {a : α}
    (h : x.run b = .ok a b') : (f <$> x).run b = .ok (f a) b' := by
  change EStateM.map f x b = _
  change x b = _ at h
  rw [EStateM.map, h]

/-- What is thrown skips the rest. -/
theorem error_bind {α β : Type} {x : BufferM α} {f : α → BufferM β} {b b' : Buffer} {e : Fault}
    (h : x.run b = .error e b') : (x >>= f).run b = .error e b' := by
  rw [EStateM.run_bind, h]

theorem int32_eq {n : Int} (hl : 0 ≤ n) (hu : n < 2 ^ 31) : int32 n = n := by
  rw [int32, Int.bmod_eq_emod_of_lt] <;> omega

theorem uint32_eq {n : Int} (hl : 0 ≤ n) (hu : n < 2 ^ 32) : uint32 n = n.toNat := by
  rw [uint32, Int.emod_eq_of_lt hl hu]

theorem sizeT_eq {n : Int} (hl : 0 ≤ n) (hu : n < 2 ^ 64) : sizeT n = n.toNat := by
  rw [sizeT, Int.emod_eq_of_lt hl hu]

/-- The low 32 bits survive a conversion to `int` and back. -/
theorem uint32_int32 (n : Int) : uint32 (int32 n) = uint32 n := by
  have h : n.bmod (2 ^ 32) % (2 ^ 32 : Int) = n % 2 ^ 32 := Int.bmod_emod
  rw [uint32, int32, h, uint32]

namespace Buffer

/- Of the bytes that `size` covers, a store puts `w` in the place of `o`, between `p` and `q`. -/
variable {d r w p o q : List UInt8} {i n : Nat} {what : String}

@[simp] theorem view_index : (view d r i).index = i := rfl

@[simp] theorem view_size : (view d r i).size = d.length := rfl

@[simp] theorem view_data : (view d r i).data = d ++ r := rfl

theorem checkRoom_view (hd : d.length < 2 ^ 31) (h : i + n ≤ d.length) :
    (checkRoom n what).run (view d r i) = .ok () (view d r i) := by
  have hi : int32 ((i : Int) + n) = i + n := int32_eq (by omega) (by omega)
  rw [checkRoom, ok_bind (EStateM.run_get _), view_index, view_size, hi, if_neg (by omega)]
  rfl

theorem checkRoom_view_short (hd : d.length < i + n) (hn : i + n < 2 ^ 31) :
    (checkRoom n what).run (view d r i) = .error (.outOfRange what) (view d r i) := by
  have hi : int32 ((i : Int) + n) = i + n := int32_eq (by omega) (by omega)
  rw [checkRoom, ok_bind (EStateM.run_get _), view_index, view_size, hi, if_pos (by omega)]
  rfl

theorem checkRoomUnsigned_view (hd : d.length < 2 ^ 31) (h : i + n ≤ d.length) :
    (checkRoomUnsigned n what).run (view d r i) = .ok () (view d r i) := by
  have hs : uint32 (d.length : Int) = d.length := by rw [uint32_eq] <;> omega
  have hi : uint32 ((i : Int) + n) = i + n := by rw [uint32_eq] <;> omega
  rw [checkRoomUnsigned, ok_bind (EStateM.run_get _), view_index, view_size, hs, hi,
    if_neg (by omega)]
  rfl

/-- A request past the end is refused as long as its sum does not wrap. -/
theorem checkRoomUnsigned_view_short (hd : d.length < i + n) (hn : i + n < 2 ^ 32) :
    (checkRoomUnsigned n what).run (view d r i) =
      .error (.outOfRange what) (view d r i) := by
  have hs : uint32 (d.length : Int) = d.length := by rw [uint32_eq] <;> omega
  have hi : uint32 ((i : Int) + n) = i + n := by rw [uint32_eq] <;> omega
  rw [checkRoomUnsigned, ok_bind (EStateM.run_get _), view_index, view_size, hs, hi,
    if_pos (by omega)]
  rfl

theorem load_view (h : i + n ≤ d.length) :
    (load n).run (view d r i) = .ok ((d.drop i).take n) (view d r (i + n)) := by
  have hle : i + n ≤ (d ++ r).length := by rw [List.length_append]; omega
  have htake : ((d ++ r).drop i).take n = (d.drop i).take n := by
    rw [List.drop_append_of_le_length (by omega), List.take_append_of_le_length (by simp; omega)]
  rw [load, ok_bind (EStateM.run_get _), view_index, view_data, if_pos hle,
    ok_bind (EStateM.run_set _ _), htake]
  rfl

theorem readLongLong_view (hd : d.length < 2 ^ 31) (h : i + 8 ≤ d.length) :
    readLongLong.run (view d r i) =
      .ok (UInt64.ofNat (Bytes.ofBe ((d.drop i).take 8))) (view d r (i + 8)) := by
  rw [readLongLong, ok_bind (checkRoom_view hd h), ok_bind (load_view h)]
  rfl

theorem readInteger_view (hd : d.length < 2 ^ 31) (h : i + 4 ≤ d.length) :
    readInteger.run (view d r i) =
      .ok (UInt32.ofNat (Bytes.ofBe ((d.drop i).take 4))) (view d r (i + 4)) := by
  rw [readInteger, ok_bind (checkRoom_view hd h), ok_bind (load_view h)]
  rfl

theorem readInteger_view_short (hd : d.length < i + 4) (hi : i + 4 < 2 ^ 31) :
    readInteger.run (view d r i) = .error (.outOfRange readText) (view d r i) := by
  rw [readInteger, error_bind (checkRoom_view_short hd hi)]

theorem readShort_view (hd : d.length < 2 ^ 31) (h : i + 2 ≤ d.length) :
    readShort.run (view d r i) =
      .ok (UInt16.ofNat (Bytes.ofBe ((d.drop i).take 2))) (view d r (i + 2)) := by
  rw [readShort, ok_bind (checkRoom_view hd h), ok_bind (load_view h)]
  rfl

theorem readShort_view_short (hd : d.length < i + 2) (hi : i + 2 < 2 ^ 31) :
    readShort.run (view d r i) = .error (.outOfRange readText) (view d r i) := by
  rw [readShort, error_bind (checkRoom_view_short hd hi)]

theorem readByte_view (hd : d.length < 2 ^ 31) (h : i < d.length) :
    readByte.run (view d r i) = .ok d[i] (view d r (i + 1)) := by
  have ht : (d.drop i).take 1 = [d[i]] := by
    rw [List.drop_eq_getElem_cons h, List.take_succ_cons, List.take_zero]
  rw [readByte, ok_bind (checkRoom_view (n := 1) hd h), ok_bind (load_view (n := 1) h), ht]
  simp [Bytes.ofBe]

theorem readByte_view_short (hd : d.length ≤ i) (hi : i + 1 < 2 ^ 31) :
    readByte.run (view d r i) = .error (.outOfRange readText) (view d r i) := by
  rw [readByte, error_bind (checkRoom_view_short (by omega) hi)]

theorem readBytes_view (h : i + n ≤ d.length) :
    (readBytes n).run (view d r i) = .ok ((d.drop i).take n) (view d r (i + n)) := by
  induction n generalizing i with
  | zero => simp [readBytes]
  | succ n ih =>
    have hone : (d.drop i).take (n + 1) = (d.drop i).take 1 ++ (d.drop (i + 1)).take n := by
      rw [Nat.add_comm n 1, List.take_add, List.drop_drop]
    have hidx : i + (n + 1) = i + 1 + n := by omega
    rw [readBytes, ok_bind (load_view (n := 1) (by omega)), ok_bind (ih (by omega)), hone, hidx]
    rfl

theorem readBuffer_view (hd : d.length < 2 ^ 31) (h : i + n ≤ d.length) :
    (readBuffer n).run (view d r i) = .ok ((d.drop i).take n) (view d r (i + n)) := by
  rw [readBuffer, ok_bind (checkRoomUnsigned_view hd h), readBytes_view h]

theorem readBuffer_view_short (hd : d.length < i + n) (hn : i + n < 2 ^ 32) :
    (readBuffer n).run (view d r i) = .error (.outOfRange readText) (view d r i) := by
  rw [readBuffer, error_bind (checkRoomUnsigned_view_short hd hn)]

theorem rewind_view : rewind.run (view d r i) = .ok () (view d r 0) := rfl

/-- A store replaces the bytes under the cursor and nothing else. -/
theorem store_view (h : o.length = w.length) :
    (store w).run (view (p ++ o ++ q) r p.length) =
      .ok () (view (p ++ w ++ q) r (p.length + w.length)) := by
  have hle : p.length + w.length ≤ (p ++ o ++ q ++ r).length := by simp; omega
  have hdrop : (p ++ o ++ q ++ r).drop (p.length + w.length) = q ++ r := by
    rw [← h, List.append_assoc, ← List.length_append, List.drop_left]
  have htake : (p ++ o ++ q ++ r).take p.length = p := by
    rw [List.append_assoc, List.append_assoc, List.take_left]
  rw [store, ok_bind (EStateM.run_get _), view_index, view_data, if_pos hle, EStateM.run_set,
    htake, hdrop]
  simp [view, h]

theorem writeBytes_view (h : o.length = w.length) :
    (writeBytes w).run (view (p ++ o ++ q) r p.length) =
      .ok () (view (p ++ w ++ q) r (p.length + w.length)) := by
  induction w generalizing p o with
  | nil => obtain rfl := List.length_eq_zero_iff.mp h; rfl
  | cons b w ih =>
    obtain ⟨o, os, rfl⟩ := List.exists_cons_of_length_eq_add_one h
    have hs := store_view (p := p) (o := [o]) (w := [b]) (q := os ++ q)
      (r := r) rfl
    have hr := ih (p := p ++ [b]) (o := os) (by simpa using h)
    simp only [List.append_assoc, List.cons_append, List.nil_append, List.length_append,
      List.length_cons, List.length_nil, Nat.zero_add] at hs hr ⊢
    rw [writeBytes, ok_bind hs, hr, Nat.add_assoc, Nat.add_comm 1]

/-- Filling the next free bytes of a buffer whose first `p.length` are written. -/
theorem writeBuffer_view (hd : (p ++ o ++ q).length < 2 ^ 31)
    (h : o.length = w.length) :
    (writeBuffer w).run (view (p ++ o ++ q) r p.length) =
      .ok () (view (p ++ w ++ q) r (p.length + w.length)) := by
  have hroom : p.length + w.length ≤ (p ++ o ++ q).length := by simp; omega
  rw [writeBuffer, ok_bind (checkRoomUnsigned_view hd hroom), writeBytes_view h]

/-- The integer writers: room for the width, then the bytes big-endian. -/
theorem write_be_view (v : Nat) (hd : (p ++ o ++ q).length < 2 ^ 31)
    (h : o.length = n) :
    (do checkRoom n what; store (Bytes.be n v) : BufferM Unit).run
        (view (p ++ o ++ q) r p.length) =
      .ok () (view (p ++ Bytes.be n v ++ q) r (p.length + n)) := by
  have hroom : p.length + n ≤ (p ++ o ++ q).length := by simp; omega
  rw [ok_bind (checkRoom_view hd hroom), store_view (by rw [h, Bytes.length_be]),
    Bytes.length_be]

theorem writeLongLong_view (p_value : UInt64) (hd : (p ++ o ++ q).length < 2 ^ 31)
    (h : o.length = 8) :
    (writeLongLong p_value).run (view (p ++ o ++ q) r p.length) =
      .ok () (view (p ++ Bytes.be 8 p_value.toNat ++ q) r (p.length + 8)) :=
  write_be_view p_value.toNat hd h

theorem writeInteger_view (p_value : UInt32) (hd : (p ++ o ++ q).length < 2 ^ 31)
    (h : o.length = 4) :
    (writeInteger p_value).run (view (p ++ o ++ q) r p.length) =
      .ok () (view (p ++ Bytes.be 4 p_value.toNat ++ q) r (p.length + 4)) :=
  write_be_view p_value.toNat hd h

theorem writeShort_view (p_value : UInt16) (hd : (p ++ o ++ q).length < 2 ^ 31)
    (h : o.length = 2) :
    (writeShort p_value).run (view (p ++ o ++ q) r p.length) =
      .ok () (view (p ++ Bytes.be 2 p_value.toNat ++ q) r (p.length + 2)) :=
  write_be_view p_value.toNat hd h

theorem writeByte_view (p_value : UInt8) (hd : (p ++ o ++ q).length < 2 ^ 31)
    (h : o.length = 1) :
    (writeByte p_value).run (view (p ++ o ++ q) r p.length) =
      .ok () (view (p ++ [p_value] ++ q) r (p.length + 1)) := by
  have hroom : p.length + 1 ≤ (p ++ o ++ q).length := by simp; omega
  rw [writeByte, ok_bind (checkRoom_view hd hroom), store_view h]
  rfl

/-- `Init` on a buffer that was never allocated. -/
theorem init_empty (hn : 0 < n) (hu : n < 2 ^ 31) :
    (init n).run {} = .ok () (view (List.replicate n 0) [] 0) := by
  have hs : int32 (n : Int) = n := int32_eq (by omega) (by omega)
  have hw : uint32 (n : Int) = n := by rw [uint32_eq] <;> omega
  rw [init, ok_bind (EStateM.run_get _), if_neg (by simp), hw, hs, if_pos hn]
  simp [view]

end Buffer

end GameNetwork
