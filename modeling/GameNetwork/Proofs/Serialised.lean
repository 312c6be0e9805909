import GameNetwork.Proofs.Bounds

namespace GameNetwork.Proofs
open Buffer

variable {b : Buffer} {d r p o q : List UInt8} {i : Nat}

/-- The fields were written at the cursor, which stands behind them now. Every other byte of the
allocation is as it was. -/
structure Serialised (fields : List Field) (b b' : Buffer) : Prop where
  index : b'.index = b.index + (encodedFields fields).length
  size : b'.size = b.size
  data : b'.data = b.data.take b.index ++ encodedFields fields ++
    b.data.drop (b.index + (encodedFields fields).length)

theorem field_write (field : Field) (hd : (p ++ o ++ q).length < 2 ^ 31)
    (h : o.length = field.encoded.length) :
    field.write.run (view (p ++ o ++ q) r p.length) =
      .ok () (view (p ++ field.encoded ++ q) r (p.length + field.encoded.length)) := by
  cases field with
  | longLong p_value => exact writeLongLong_view p_value hd h
  | integer p_value => exact writeInteger_view p_value hd h
  | short p_value => exact writeShort_view p_value hd h
  | byte p_value => exact writeByte_view p_value hd h
  | bytes p_buffer => exact writeBuffer_view hd h

theorem field_read (type : FieldType) (hd : d.length < 2 ^ 31) (h : i + type.size ≤ d.length) :
    type.read.run (view d r i) =
      .ok (type.decoded ((d.drop i).take type.size)) (view d r (i + type.size)) := by
  cases type with
  | longLong => exact ok_map (readLongLong_view hd h)
  | integer => exact ok_map (readInteger_view hd h)
  | short => exact ok_map (readShort_view hd h)
  | byte =>
    have hr : readByte.run (view d r i) =
        .ok (UInt8.ofNat (Bytes.ofBe ((d.drop i).take 1))) (view d r (i + 1)) := by
      rw [readByte, ok_bind (checkRoom_view (n := 1) hd h), ok_bind (load_view (n := 1) h)]
      rfl
    exact ok_map hr
  | bytes p_size => exact ok_map (readBuffer_view hd h)

/-- Each field goes behind the ones before it. -/
theorem fields_write (fields : List Field) (hd : (p ++ o ++ q).length < 2 ^ 31)
    (h : o.length = (encodedFields fields).length) :
    (writeFields fields).run (view (p ++ o ++ q) r p.length) =
      .ok () (view (p ++ encodedFields fields ++ q) r
        (p.length + (encodedFields fields).length)) := by
  induction fields generalizing p o with
  | nil =>
    obtain rfl := List.length_eq_zero_iff.mp h
    rfl
  | cons field fields ih =>
    have hcons : encodedFields (field :: fields) = field.encoded ++ encodedFields fields := rfl
    rw [hcons, List.length_append] at h
    -- the bytes that give way to the first field, and the rest
    obtain ⟨first, others, rfl, hfirst, hothers⟩ : ∃ first others, o = first ++ others ∧
        first.length = field.encoded.length ∧ others.length = (encodedFields fields).length := by
      refine ⟨o.take field.encoded.length, o.drop field.encoded.length, ?_, ?_, ?_⟩
      · rw [List.take_append_drop]
      · rw [List.length_take_of_le (by omega)]
      · rw [List.length_drop]
        omega
    have hw := field_write field (p := p) (o := first) (q := others ++ q) (r := r)
      (by simpa [Nat.add_assoc] using hd) hfirst
    have hr := ih (p := p ++ field.encoded) (o := others)
      (by simpa [hfirst, Nat.add_assoc] using hd) hothers
    simp only [List.append_assoc, List.length_append, Nat.add_assoc] at hw hr ⊢
    rw [writeFields, ok_bind hw, hr, hcons]
    simp only [List.append_assoc, List.length_append]

/-- Reading takes the bytes under the cursor apart. -/
theorem fields_read (types : List FieldType) (hd : d.length < 2 ^ 31)
    (h : i + (types.map FieldType.size).sum ≤ d.length) :
    (readFields types).run (view d r i) =
      .ok (decodedFields types (d.drop i)) (view d r (i + (types.map FieldType.size).sum)) := by
  induction types generalizing i with
  | nil => rfl
  | cons type types ih =>
    rw [List.map_cons, List.sum_cons] at h ⊢
    have hfirst := field_read type (r := r) hd (i := i) (by omega)
    have hrest := ih (i := i + type.size) (by omega)
    rw [readFields, ok_bind hfirst, ok_bind hrest, decodedFields, List.drop_drop, Nat.add_assoc]
    rfl

theorem type_size (field : Field) (h : field.encoded.length < 2 ^ 32) :
    field.type.size = field.encoded.length := by
  cases field with
  | bytes p_buffer =>
    change (UInt32.ofNat p_buffer.length).toNat = p_buffer.length
    rw [UInt32.toNat_ofNat']
    exact Nat.mod_eq_of_lt h
  | longLong | integer | short | byte => rfl

theorem type_decoded (field : Field) : field.type.decoded field.encoded = field := by
  cases field with
  | longLong p_value => exact congrArg Field.longLong (Bytes.uint64_ofBe_be p_value)
  | integer p_value => exact congrArg Field.integer (Bytes.uint32_ofBe_be p_value)
  | short p_value => exact congrArg Field.short (Bytes.uint16_ofBe_be p_value)
  | byte p_value =>
    change Field.byte (UInt8.ofNat (Bytes.ofBe [p_value])) = Field.byte p_value
    simp [Bytes.ofBe]
  | bytes p_buffer => rfl

/-- The encoding is uniquely read by the types of its fields, whatever follows it. -/
theorem decoded_encoded (fields : List Field) (rest : List UInt8)
    (h : (encodedFields fields).length < 2 ^ 32) :
    ((fields.map Field.type).map FieldType.size).sum = (encodedFields fields).length ∧
      decodedFields (fields.map Field.type) (encodedFields fields ++ rest) = fields := by
  induction fields with
  | nil => exact ⟨rfl, rfl⟩
  | cons field fields ih =>
    have hcons : encodedFields (field :: fields) = field.encoded ++ encodedFields fields := rfl
    rw [hcons, List.length_append] at h
    obtain ⟨hsum, hdecoded⟩ := ih (by omega)
    have hsize := type_size field (by omega)
    constructor
    · rw [List.map_cons, List.map_cons, List.sum_cons, hsum, hsize, hcons, List.length_append]
    · rw [List.map_cons, decodedFields, hcons, List.append_assoc, hsize, List.take_left,
        List.drop_left, type_decoded, hdecoded]

/-- Fields inside the bytes that `size` covers. -/
theorem fields_view (fields : List Field) (hd : d.length < 2 ^ 31)
    (h : i + (encodedFields fields).length ≤ d.length) :
    (writeFields fields).run (view d r i) =
        .ok () (view (patch d i (encodedFields fields)) r (i + (encodedFields fields).length)) ∧
      (readFields (fields.map Field.type)).run (view (patch d i (encodedFields fields)) r i) =
        .ok fields (view (patch d i (encodedFields fields)) r
          (i + (encodedFields fields).length)) := by
  have hlen := length_patch (encodedFields fields) h
  have hbefore : (d.take i).length = i := List.length_take_of_le (by omega)
  obtain ⟨hsize, hdecoded⟩ := decoded_encoded fields (d.drop (i + (encodedFields fields).length))
    (by omega)
  constructor
  · have hw := fields_write fields (p := d.take i) (r := r)
      (o := (d.drop i).take (encodedFields fields).length)
      (q := d.drop (i + (encodedFields fields).length))
      (by rw [← split_at]; exact hd) (by rw [List.length_take_of_le]; simp; omega)
    rwa [← split_at, hbefore] at hw
  · have hr := fields_read (fields.map Field.type) (r := r) (i := i)
      (d := patch d i (encodedFields fields)) (by omega) (by omega)
    have hdrop : (patch d i (encodedFields fields)).drop i =
        encodedFields fields ++ d.drop (i + (encodedFields fields).length) := by
      rw [patch, List.append_assoc, List.drop_left' hbefore]
    rwa [hdrop, hdecoded, hsize] at hr

/-- The bytes that `size` covers, and those behind them. -/
theorem covered_view (hdata : b.size ≤ b.data.length) (h0 : 0 ≤ b.size) :
    b = view (b.data.take b.size.toNat) (b.data.drop b.size.toNat) b.index := by
  have hlen : ((b.data.take b.size.toNat).length : Int) = b.size := by
    rw [List.length_take_of_le (by omega)]
    omega
  rw [view, List.take_append_drop, hlen]

/-- Any fields with room for them are written in order, big-endian, over the bytes at the cursor
and no others, and the matching reads give them back. -/
theorem fields_round_trip (fields : List Field) (b : Buffer) (hdata : b.size ≤ b.data.length)
    (hlt : b.size < 2 ^ 31) (hroom : b.index + (encodedFields fields).length ≤ b.size) :
    ∃ b', (writeFields fields).run b = .ok () b' ∧ Serialised fields b b' ∧
      (readFields (fields.map Field.type)).run { b' with index := b.index } = .ok fields b' := by
  have hcover : (b.data.take b.size.toNat).length = b.size.toNat :=
    List.length_take_of_le (by omega)
  have hfits : b.index + (encodedFields fields).length ≤ (b.data.take b.size.toNat).length := by
    omega
  obtain ⟨hw, hr⟩ := fields_view fields (r := b.data.drop b.size.toNat) (by omega) hfits
  rw [← covered_view hdata (by omega)] at hw
  refine ⟨_, hw, ?_, hr⟩
  constructor
  · rfl
  · rw [view_size, length_patch _ hfits, hcover]
    omega
  · have htake : (b.data.take b.size.toNat).take b.index = b.data.take b.index := by
      rw [List.take_take, Nat.min_eq_left (by omega)]
    have hdrop : (b.data.take b.size.toNat).drop (b.index + (encodedFields fields).length) ++
        b.data.drop b.size.toNat = b.data.drop (b.index + (encodedFields fields).length) := by
      rw [← List.drop_append_of_le_length hfits, List.take_append_drop]
    rw [view_data, patch, htake, List.append_assoc, hdrop]

/-- A buffer of 16 bytes takes four fields from the second byte on. -/
theorem fields_round_trip_sample :
    ∃ b', (writeFields [.short 0x1234, .longLong 1, .bytes [7, 8], .byte 9]).run
        (view (List.replicate 16 0) [] 1) = .ok () b' ∧
      Serialised [.short 0x1234, .longLong 1, .bytes [7, 8], .byte 9]
        (view (List.replicate 16 0) [] 1) b' ∧
      (readFields [.short, .longLong, .bytes 2, .byte]).run { b' with index := 1 } =
        .ok [.short 0x1234, .longLong 1, .bytes [7, 8], .byte 9] b' :=
  fields_round_trip [.short 0x1234, .longLong 1, .bytes [7, 8], .byte 9]
    (view (List.replicate 16 0) [] 1) (by decide) (by decide) (by decide)

end GameNetwork.Proofs
