import GameNetwork.Fields
import GameNetwork.Lib.Runs
import GameNetwork.Packet

namespace GameNetwork.Proofs
open Buffer

variable {b b' : Buffer} {d bs : List UInt8} {i n : Nat} {call : BufferCall}

/-- The cursor stands inside the allocation, which `size` counts. -/
structure Valid (b : Buffer) : Prop where
  size : b.size = b.data.length
  index : b.index ≤ b.data.length
  size_lt : b.size < 2 ^ 31

/-- A valid buffer shows its whole allocation. -/
theorem Valid.view (hb : Valid b) : b = view b.data [] b.index := by
  rw [Buffer.view, List.append_nil, ← hb.size]

theorem Valid.length_lt (hb : Valid b) : b.data.length < 2 ^ 31 := by
  have := hb.size
  have := hb.size_lt
  omega

/-- Where the sum in the check of a call wraps: it is an `int` for the integers, an
`unsigned int` in `WriteBuffer` and `ReadBuffer`. -/
def BufferCall.limit : BufferCall → Nat
  | .write (.bytes _) => 2 ^ 32
  | .read (.bytes _) => 2 ^ 32
  | _ => 2 ^ 31

/-- The sum in the check does not wrap. -/
def SumStays (b : Buffer) (call : BufferCall) : Prop := b.index + call.size < BufferCall.limit call

instance (b : Buffer) (call : BufferCall) : Decidable (SumStays b call) :=
  inferInstanceAs (Decidable (_ < _))

/-- What the bytes of a call are afterwards, and what it returns. -/
def BufferCall.effect : BufferCall → List UInt8 → List UInt8 × Option Field
  | .write field, _ => (field.encoded, none)
  | .read type, old => (old, some (type.decoded old))

/-- The call has touched the next `n` bytes and no others. -/
structure Accessed (b : Buffer) (call : BufferCall) (v : Option Field) (b' : Buffer) : Prop where
  room : b.index + call.size ≤ b.data.length
  index : b'.index = b.index + call.size
  size : b'.size = b.size
  bytes : ((b'.data.drop b.index).take call.size, v) =
    BufferCall.effect call ((b.data.drop b.index).take call.size)
  before : b'.data.take b.index = b.data.take b.index
  after : b'.data.drop (b.index + call.size) = b.data.drop (b.index + call.size)

/-- The call throws and leaves the buffer alone, or stays inside it. -/
structure Safe (b : Buffer) (call : BufferCall) : Prop where
  returns : ∀ v b', call.run.run b = .ok v b' → Accessed b call v b'
  throws : ∀ fault b', call.run.run b = .error fault b' →
    (∃ what, fault = .outOfRange what) ∧ b' = b

/-- The check before a call. -/
def BufferCall.guard : BufferCall → BufferM Unit
  | .write (.bytes p_buffer) => checkRoomUnsigned p_buffer.length writeText
  | .write field => checkRoom field.encoded.length writeText
  | .read (.bytes p_size) => checkRoomUnsigned p_size.toNat readText
  | .read type => checkRoom type.size readText

/-- The access behind it. -/
def BufferCall.access : BufferCall → BufferM (Option Field)
  | .write (.bytes p_buffer) => do writeBytes p_buffer; return none
  | .write field => do store field.encoded; return none
  | .read (.bytes p_size) => do return some (.bytes (← readBytes p_size.toNat))
  | .read type => do return some (type.decoded (← load type.size))

theorem run_eq (call : BufferCall) :
    call.run = (do BufferCall.guard call; BufferCall.access call) := by
  cases call with
  | write field =>
    cases field with
    | bytes p_buffer => exact bind_assoc _ _ _
    | longLong | integer | short | byte => exact bind_assoc _ _ _
  | read type =>
    cases type <;>
      simp only [BufferCall.run, FieldType.read, readLongLong, readInteger, readShort, readByte,
        readBuffer, map_eq_pure_bind, bind_assoc, pure_bind] <;> rfl

theorem checkRoom_eq (what : String) (hd : d.length < 2 ^ 31) (hi : i ≤ d.length) (hn : n ≤ 8) :
    (checkRoom n what).run (view d [] i) =
      if d.length < i + n ∧ i + n < 2 ^ 31 then .error (.outOfRange what) (view d [] i)
      else .ok () (view d [] i) := by
  by_cases hw : i + n < 2 ^ 31
  · by_cases hl : i + n ≤ d.length
    · rw [if_neg (by omega), checkRoom_view hd hl]
    · rw [if_pos (by omega), checkRoom_view_short (by omega) hw]
  · -- the sum wraps to a negative number
    have hneg : int32 ((i : Int) + n) = i + n - 2 ^ 32 := by
      rw [int32, Int.bmod_def]
      omega
    rw [if_neg (by omega), checkRoom, ok_bind (EStateM.run_get _), view_index, view_size, hneg,
      if_neg (by omega)]
    rfl

theorem checkRoomUnsigned_eq (what : String) (hd : d.length < 2 ^ 31) (hi : i ≤ d.length) (hn : n < 2 ^ 32) :
    (checkRoomUnsigned n what).run (view d [] i) =
      if d.length < i + n ∧ i + n < 2 ^ 32 then .error (.outOfRange what) (view d [] i)
      else .ok () (view d [] i) := by
  by_cases hw : i + n < 2 ^ 32
  · by_cases hl : i + n ≤ d.length
    · rw [if_neg (by omega), checkRoomUnsigned_view hd hl]
    · rw [if_pos (by omega), checkRoomUnsigned_view_short (by omega) hw]
  · -- the sum wraps to less than the cursor
    have hs : uint32 (d.length : Int) = d.length := by rw [uint32_eq] <;> omega
    have hsum : uint32 ((i : Int) + n) = i + n - 2 ^ 32 := by
      rw [uint32]
      omega
    rw [if_neg (by omega), checkRoomUnsigned, ok_bind (EStateM.run_get _), view_index, view_size, hs,
      hsum, if_neg (by omega)]
    rfl

/-- The check of a call passes when there is room, and when its sum wraps. -/
theorem guard_eq (hb : Valid b) (hn : call.size < 2 ^ 32) :
    ∃ what, (BufferCall.guard call).run b =
      if b.data.length < b.index + call.size ∧ SumStays b call then .error (.outOfRange what) b
      else .ok () b := by
  have hd := hb.length_lt
  have hfixed (n : Nat) (hn : n ≤ 8) (what : String) := checkRoom_eq what hd hb.index hn
  have hbytes (n : Nat) (hn : n < 2 ^ 32) (what : String) :=
    checkRoomUnsigned_eq what hd hb.index hn
  rw [← hb.view] at hfixed hbytes
  cases call with
  | write field =>
    cases field with
    | bytes p_buffer => exact ⟨writeText, hbytes _ hn writeText⟩
    | longLong v => exact ⟨writeText, hfixed 8 (by omega) writeText⟩
    | integer v => exact ⟨writeText, hfixed 4 (by omega) writeText⟩
    | short v => exact ⟨writeText, hfixed 2 (by omega) writeText⟩
    | byte v => exact ⟨writeText, hfixed 1 (by omega) writeText⟩
  | read type =>
    cases type with
    | bytes p_size => exact ⟨readText, hbytes _ hn readText⟩
    | longLong => exact ⟨readText, hfixed 8 (by omega) readText⟩
    | integer => exact ⟨readText, hfixed 4 (by omega) readText⟩
    | short => exact ⟨readText, hfixed 2 (by omega) readText⟩
    | byte => exact ⟨readText, hfixed 1 (by omega) readText⟩

theorem store_past (h : d.length < i + bs.length) :
    (store bs).run (view d [] i) = .error .undefinedBehaviour (view d [] i) := by
  rw [store, ok_bind (EStateM.run_get _), view_index, view_data, if_neg (by simp; omega)]
  rfl

theorem load_past (h : d.length < i + n) :
    (load n).run (view d [] i) = .error .undefinedBehaviour (view d [] i) := by
  rw [load, ok_bind (EStateM.run_get _), view_index, view_data, if_neg (by simp; omega)]
  rfl

/-- The bytes with some of them replaced. -/
def patch (d : List UInt8) (i : Nat) (bs : List UInt8) : List UInt8 :=
  d.take i ++ bs ++ d.drop (i + bs.length)

theorem split_at (d : List UInt8) (i n : Nat) :
    d = d.take i ++ (d.drop i).take n ++ d.drop (i + n) := by
  rw [← List.drop_drop, List.append_assoc, List.take_append_drop, List.take_append_drop]

theorem length_patch (bs : List UInt8) (h : i + bs.length ≤ d.length) : (patch d i bs).length = d.length := by
  simp [patch]
  omega

theorem patch_before (h : i ≤ d.length) : (patch d i bs).take i = d.take i := by
  rw [patch, List.append_assoc, List.take_left' (List.length_take_of_le h)]

theorem patch_in (h : i ≤ d.length) : ((patch d i bs).drop i).take bs.length = bs := by
  rw [patch, List.append_assoc, List.drop_left' (List.length_take_of_le h), List.take_left]

theorem patch_after (h : i ≤ d.length) :
    (patch d i bs).drop (i + bs.length) = d.drop (i + bs.length) := by
  rw [patch, List.drop_left' (by rw [List.length_append, List.length_take_of_le h])]

theorem store_at (bs : List UInt8) (h : i + bs.length ≤ d.length) :
    (store bs).run (view d [] i) = .ok () (view (patch d i bs) [] (i + bs.length)) := by
  have hs := store_view (p := d.take i) (o := (d.drop i).take bs.length) (w := bs)
    (q := d.drop (i + bs.length)) (r := []) (by simp; omega)
  rwa [← split_at, List.length_take_of_le (by omega)] at hs

theorem writeBytes_at (bs : List UInt8) (h : i + bs.length ≤ d.length) :
    (writeBytes bs).run (view d [] i) = .ok () (view (patch d i bs) [] (i + bs.length)) := by
  have hs := writeBytes_view (p := d.take i) (o := (d.drop i).take bs.length) (w := bs)
    (q := d.drop (i + bs.length)) (r := []) (by simp; omega)
  rwa [← split_at, List.length_take_of_le (by omega)] at hs

/-- The loop of `WriteBuffer` runs on to the end of the allocation and past it. -/
theorem writeBytes_past (hi : i ≤ d.length) (h : d.length < i + bs.length) :
    ∃ b', (writeBytes bs).run (view d [] i) = .error .undefinedBehaviour b' := by
  induction bs generalizing d i with
  | nil => exact absurd h (by simp; omega)
  | cons b bs ih =>
    by_cases hlt : i < d.length
    · have hs := store_at [b] hlt
      have hl := length_patch [b] hlt
      obtain ⟨b', hb'⟩ := ih (d := patch d i [b]) (i := i + 1) (by omega)
        (by rw [List.length_cons] at h; omega)
      exact ⟨b', by rw [writeBytes, ok_bind hs]; exact hb'⟩
    · exact ⟨_, by rw [writeBytes, error_bind (store_past (by simp; omega))]⟩

theorem readBytes_past (hi : i ≤ d.length) (h : d.length < i + n) :
    ∃ b', (readBytes n).run (view d [] i) = .error .undefinedBehaviour b' := by
  induction n generalizing i with
  | zero => omega
  | succ n ih =>
    by_cases hlt : i < d.length
    · obtain ⟨b', hb'⟩ := ih (i := i + 1) (by omega) (by omega)
      exact ⟨b', by rw [readBytes, ok_bind (load_view (n := 1) hlt), error_bind hb']⟩
    · exact ⟨_, by rw [readBytes, error_bind (load_past (by omega))]⟩

theorem length_effect (h : bs.length = call.size) :
    (BufferCall.effect call bs).1.length = call.size := by
  cases call with
  | write field => rfl
  | read type => exact h

theorem accessed (hb : Valid b) (hi : b.index + call.size ≤ b.data.length) :
    Accessed b call (BufferCall.effect call ((b.data.drop b.index).take call.size)).2
      (view (patch b.data b.index
        (BufferCall.effect call ((b.data.drop b.index).take call.size)).1) []
        (b.index + call.size)) := by
  have hold : ((b.data.drop b.index).take call.size).length = call.size :=
    List.length_take_of_le (by rw [List.length_drop]; omega)
  have hl := length_effect hold
  generalize ho : (b.data.drop b.index).take call.size = old at hl ⊢
  generalize he : BufferCall.effect call old = e at hl ⊢
  have hlen := length_patch (d := b.data) (i := b.index) e.1 (by omega)
  constructor
  · exact hi
  · rfl
  · rw [view_size, hlen, hb.size]
  · rw [view_data, List.append_nil, ho, he, ← hl, patch_in hb.index]
  · rw [view_data, List.append_nil, patch_before hb.index]
  · rw [view_data, List.append_nil, ← hl, patch_after hb.index]

/-- An access with room for it. -/
theorem access_in (hi : i + call.size ≤ d.length) :
    (BufferCall.access call).run (view d [] i) =
      .ok (BufferCall.effect call ((d.drop i).take call.size)).2
        (view (patch d i (BufferCall.effect call ((d.drop i).take call.size)).1) []
          (i + call.size)) := by
  cases call with
  | write field =>
    cases field with
    | bytes p_buffer => exact ok_bind (writeBytes_at p_buffer hi)
    | longLong | integer | short | byte => exact ok_bind (store_at _ hi)
  | read type =>
    have hkeep : patch d i ((d.drop i).take type.size) = d := by
      have hl : ((d.drop i).take type.size).length = type.size :=
        List.length_take_of_le (by rw [List.length_drop]; exact Nat.le_sub_of_add_le' hi)
      rw [patch, hl]
      exact (split_at d i type.size).symm
    simp only [BufferCall.effect, BufferCall.size, hkeep]
    cases type with
    | bytes p_size => exact ok_bind (readBytes_view (n := p_size.toNat) hi)
    | longLong | integer | short | byte => exact ok_bind (load_view hi)

/-- An access without room for it leaves the allocation. -/
theorem access_out (hi : i ≤ d.length) (h : d.length < i + call.size) :
    ∃ b', (BufferCall.access call).run (view d [] i) = .error .undefinedBehaviour b' := by
  cases call with
  | write field =>
    cases field with
    | bytes p_buffer =>
      obtain ⟨b', hb'⟩ := writeBytes_past hi h
      exact ⟨b', error_bind hb'⟩
    | longLong | integer | short | byte => exact ⟨_, error_bind (store_past h)⟩
  | read type =>
    cases type with
    | bytes p_size =>
      obtain ⟨b', hb'⟩ := readBytes_past hi h
      exact ⟨b', error_bind hb'⟩
    | longLong | integer | short | byte => exact ⟨_, error_bind (load_past h)⟩

/-- A call throws where there is no room and the sum does not wrap. -/
theorem run_no_room (hb : Valid b) (hn : call.size < 2 ^ 32)
    (h : b.data.length < b.index + call.size) (hs : SumStays b call) :
    ∃ what, call.run.run b = .error (.outOfRange what) b := by
  obtain ⟨what, hg⟩ := guard_eq hb hn
  rw [if_pos ⟨h, hs⟩] at hg
  exact ⟨what, by rw [run_eq, error_bind hg]⟩

/-- A call whose sum wraps leaves the allocation. -/
theorem run_wraps (hb : Valid b) (hn : call.size < 2 ^ 32)
    (h : b.data.length < b.index + call.size) (hs : ¬ SumStays b call) :
    ∃ b', call.run.run b = .error .undefinedBehaviour b' := by
  obtain ⟨what, hg⟩ := guard_eq hb hn
  rw [if_neg (fun hno => hs hno.2)] at hg
  obtain ⟨b', ha⟩ := access_out hb.index h
  rw [← hb.view] at ha
  exact ⟨b', by rw [run_eq, ok_bind hg, ha]⟩

/-- A call with room for it. -/
theorem run_room (hb : Valid b) (hn : call.size < 2 ^ 32)
    (h : b.index + call.size ≤ b.data.length) :
    ∃ v b', call.run.run b = .ok v b' ∧ Accessed b call v b' := by
  obtain ⟨what, hg⟩ := guard_eq hb hn
  rw [if_neg (by omega)] at hg
  have ha := access_in h
  rw [← hb.view] at ha
  exact ⟨_, _, by rw [run_eq, ok_bind hg, ha], accessed hb h⟩

/-- A call is safe when its sum does not wrap, and only then. -/
theorem safe_iff (hb : Valid b) (hn : call.size < 2 ^ 32) : Safe b call ↔ SumStays b call := by
  by_cases h : b.index + call.size ≤ b.data.length
  · obtain ⟨v, b', hr, hacc⟩ := run_room hb hn h
    have hs : SumStays b call := by
      have := hb.length_lt
      have hlim : 2 ^ 31 ≤ BufferCall.limit call := by
        unfold BufferCall.limit
        split <;> decide
      unfold SumStays
      omega
    refine iff_of_true ⟨?_, ?_⟩ hs
    · intro v' t ht
      cases hr.symm.trans ht
      exact hacc
    · intro fault t ht
      cases hr.symm.trans ht
  · by_cases hs : SumStays b call
    · obtain ⟨what, hr⟩ := run_no_room hb hn (by omega) hs
      refine iff_of_true ⟨?_, ?_⟩ hs
      · intro v t ht
        cases hr.symm.trans ht
      · intro fault t ht
        cases hr.symm.trans ht
        exact ⟨⟨what, rfl⟩, rfl⟩
    · obtain ⟨b', hr⟩ := run_wraps hb hn (by omega) hs
      refine iff_of_false ?_ hs
      intro h
      obtain ⟨⟨what, hwhat⟩, -⟩ := h.throws _ _ hr
      cases hwhat

/-- A call that returns leaves as many bytes as it found. -/
theorem Accessed.length {v : Option Field} (h : Accessed b call v b') :
    b'.data.length = b.data.length := by
  have hroom := h.room
  have hbytes := congrArg (fun p => p.1.length) h.bytes
  have hbefore := congrArg List.length h.before
  have hafter := congrArg List.length h.after
  have hold : ((b.data.drop b.index).take call.size).length = call.size :=
    List.length_take_of_le (by rw [List.length_drop]; omega)
  have hin := length_effect hold
  simp only [List.length_take, List.length_drop] at hbytes hbefore hafter hin
  omega

/-- A safe call keeps the cursor inside the allocation. -/
theorem Safe.valid (hb : Valid b) (h : Safe b call) (ht : Buffer.step b call = some b') :
    Valid b' := by
  unfold Buffer.step at ht
  cases hr : call.run.run b with
  | ok v t =>
    rw [hr] at ht
    cases ht
    have hacc := h.returns v b' hr
    constructor
    · rw [hacc.size, hacc.length, hb.size]
    · rw [hacc.index, hacc.length]
      exact hacc.room
    · rw [hacc.size]
      exact hb.size_lt
  | error fault t =>
    obtain ⟨⟨what, rfl⟩, rfl⟩ := h.throws fault t hr
    rw [hr] at ht
    cases ht
    exact hb

/-- The `gameDataSize` that `ConnectionDataPacket::Read` finds. -/
def claimedSize (b : Buffer) : UInt32 :=
  UInt32.ofNat (Bytes.ofBe ((b.data.drop (b.index + 2)).take 4))

/-- `ConnectionDataPacket::Read` moves to the payload and throws there, or ends behind the
payload. It changes no byte. -/
structure ReadsSafely (b : Buffer) : Prop where
  returns : ∀ packet b', ConnectionDataPacket.read.run b = .ok packet b' →
    b' = { b with index := b.index + 6 + packet.gameDataSize.toNat } ∧ b'.index ≤ b.data.length
  throws : ∀ fault b', ConnectionDataPacket.read.run b = .error fault b' →
    (∃ what, fault = .outOfRange what) ∧ b' = { b with index := b.index + 6 }

theorem view_at (hb : Valid b) (i : Nat) : { b with index := i } = view b.data [] i := by
  rw [Buffer.view, List.append_nil, ← hb.size]

/-- The reads before the payload of a data packet. -/
theorem data_read_prefix (hb : Valid b) (hi : b.index + 6 ≤ b.data.length) :
    ConnectionDataPacket.read.run b = (do
      let gameData ← readBuffer (claimedSize b).toNat
      return ({ sequence := UInt16.ofNat (Bytes.ofBe ((b.data.drop b.index).take 2))
                gameDataSize := claimedSize b
                gameData } : ConnectionDataPacket) : BufferM _).run
        { b with index := b.index + 6 } := by
  have hd := hb.length_lt
  have hs := readShort_view (r := []) hd (i := b.index) (by omega)
  have hg := readInteger_view (r := []) hd (i := b.index + 2) (by omega)
  rw [← hb.view] at hs
  rw [ConnectionDataPacket.read, ok_bind hs, ok_bind hg, ← view_at hb]
  rfl

theorem readsSafely_iff (hb : Valid b) (hi : b.index + 6 ≤ b.data.length) :
    ReadsSafely b ↔ b.index + 6 + (claimedSize b).toNat < 2 ^ 32 := by
  have hd := hb.length_lt
  have hread := data_read_prefix hb hi
  rw [view_at hb] at hread
  by_cases hroom : b.index + 6 + (claimedSize b).toNat ≤ b.data.length
  · rw [ok_bind (readBuffer_view hd hroom)] at hread
    refine iff_of_true ⟨?_, ?_⟩ (by omega)
    · intro packet b' h
      cases hread.symm.trans h
      exact ⟨(view_at hb _).symm, hroom⟩
    · intro fault b' h
      cases hread.symm.trans h
  · by_cases hs : b.index + 6 + (claimedSize b).toNat < 2 ^ 32
    · rw [error_bind (readBuffer_view_short (by omega) hs)] at hread
      refine iff_of_true ⟨?_, ?_⟩ hs
      · intro packet b' h
        cases hread.symm.trans h
      · intro fault b' h
        cases hread.symm.trans h
        exact ⟨⟨readText, rfl⟩, (view_at hb _).symm⟩
    · have hcheck := checkRoomUnsigned_eq readText hd hi (claimedSize b).toNat_lt
      rw [if_neg (by omega)] at hcheck
      obtain ⟨b', hb'⟩ := readBytes_past hi (n := (claimedSize b).toNat) (by omega)
      have hpast : (readBuffer (claimedSize b).toNat).run (view b.data [] (b.index + 6)) =
          .error .undefinedBehaviour b' := by rw [readBuffer, ok_bind hcheck, hb']
      rw [error_bind hpast] at hread
      refine iff_of_false ?_ hs
      intro h
      obtain ⟨⟨what, hwhat⟩, -⟩ := h.throws _ _ hread
      cases hwhat

/-- Every call of a run is safe exactly when none of the sums in the checks wraps, and then the
cursor stays inside the allocation. The read of a data packet is safe exactly when the sum with
its claimed payload size does not wrap. -/
theorem calls_safe_iff (hb : Valid b) {calls : List BufferCall}
    (hn : ∀ call ∈ calls, call.size < 2 ^ 32) :
    (Runs.Always Buffer.step Safe b calls ↔ Runs.Always Buffer.step SumStays b calls) ∧
      (Runs.Always Buffer.step SumStays b calls →
        ∀ t, Runs.run Buffer.step b calls = some t → Valid t) ∧
      ∀ c : Buffer, Valid c → c.index + 6 ≤ c.data.length →
        (ReadsSafely c ↔ c.index + 6 + (claimedSize c).toNat < 2 ^ 32) := by
  have hstep (b : Buffer) (call : BufferCall) (t : Buffer) (hb : Valid b) (h : Safe b call)
      (ht : Buffer.step b call = some t) : Valid t := h.valid hb ht
  have hiff := Runs.always_congr (R := fun call => call.size < 2 ^ 32) hstep
    (fun b call hn hb => safe_iff hb hn) hn hb
  constructor
  · exact hiff
  constructor
  · intro hs t ht
    exact (hiff.mpr hs).invariant hstep hb ht
  · intro c hc hi
    exact readsSafely_iff hc hi

/-- Two writes into twelve bytes, a read that finds no room, and one that does. -/
theorem calls_safe_iff_sample :
    Runs.Always Buffer.step Safe (view (List.replicate 12 0) [] 0)
      [.write (.longLong 1), .write (.bytes [2, 3]), .read .integer, .read .short] := by
  have hv : Valid (view (List.replicate 12 0) [] 0) := ⟨rfl, by decide, by decide⟩
  exact (calls_safe_iff hv (by decide +kernel)).1.mpr (by decide +kernel)

/-- The body of a data packet of 43 bytes behind its header, which claims the largest size. -/
def hugeClaim : Buffer :=
  view (List.replicate 7 0 ++ [0xFF, 0xFF, 0xFF, 0xFF] ++ List.replicate 32 0) [] 5

theorem hugeClaim_valid : Valid hugeClaim := ⟨rfl, by decide, by decide⟩

/-- A data packet may claim a size that takes the read out of the buffer. -/
theorem calls_unsafe : ¬ (∀ (b : Buffer) (calls : List BufferCall), Valid b →
      (∀ call ∈ calls, call.size < 2 ^ 32) → Runs.Always Buffer.step Safe b calls) ∧
    ¬ ∀ b : Buffer, Valid b → b.index + 6 ≤ b.data.length → ReadsSafely b := by
  constructor
  · intro h
    have hvalid : Valid { hugeClaim with index := 11 } := ⟨rfl, by decide, by decide⟩
    have hlast := (h { hugeClaim with index := 11 } [.read (.bytes 0xFFFFFFFF)]
      hvalid (by decide)).1
    have hs := (safe_iff hvalid (by decide)).mp hlast
    exact absurd hs (by decide)
  · intro h
    have hroom : hugeClaim.index + 6 ≤ hugeClaim.data.length := by decide
    have hr : ReadsSafely hugeClaim := h hugeClaim hugeClaim_valid hroom
    have hclaim : claimedSize hugeClaim = 0xFFFFFFFF := by decide +kernel
    rw [readsSafely_iff hugeClaim_valid hroom, hclaim] at hr
    exact absurd hr (by decide +kernel)

end GameNetwork.Proofs
