import GameNetwork.Proofs.Verified

namespace GameNetwork.Proofs
open Buffer

/-- The public key a handshake datagram carries. -/
def keyOf {C : Crypto} (d : List UInt8) : C.PublicKey :=
  NGMP.ofBytes ((d.drop 5).take C.roundedPublicKeySize)

/-- The sequence number of a game-data packet. -/
def sequenceOf (d : List UInt8) : UInt16 := UInt16.ofNat (Bytes.ofBe ((d.drop 5).take 2))

/-- The size it claims for its payload. -/
def gameDataSizeOf (d : List UInt8) : UInt32 := UInt32.ofNat (Bytes.ofBe ((d.drop 7).take 4))

/-- That many bytes behind the claim. -/
def gameDataOf (d : List UInt8) : List UInt8 := (d.drop 11).take (gameDataSizeOf d).toNat

/-- The buffer stands behind the type byte of a datagram. The verification may have put the
protocol id over the first four bytes. -/
def AtBody (d : List UInt8) (b : Buffer) : Prop :=
  ∃ d' rest, d'.length = d.length ∧ d'.drop 5 = d.drop 5 ∧ (d' ++ rest).length ≤ receiveSize ∧
    b = view d' rest 5

variable {C : Crypto} {d bs : List UInt8} {b b' : Buffer}

theorem atBody_view {rest : List UInt8} (h : (d ++ rest).length ≤ receiveSize) :
    AtBody d (view d rest 5) := ⟨d, rest, rfl, rfl, h, rfl⟩

theorem atBody_patched {rest : List UInt8} (hd : 4 < d.length)
    (h : (d ++ rest).length ≤ receiveSize) : AtBody d (view (patched d) rest 5) := by
  have hlen : (patched d).length = d.length := by simp [patched]; omega
  have hdrop : (patched d).drop 5 = d.drop 5 := by
    rw [patched, show 5 = 4 + 1 from rfl, ← List.drop_drop, List.drop_left' (by simp),
      List.drop_drop]
  exact ⟨patched d, rest, hlen, hdrop, by simpa [hlen] using h, rfl⟩

theorem keyOf_checked (t : PacketType) (key : C.PublicKey) : keyOf (checked t key.bytes) = key := by
  have hdrop : (checked t key.bytes).drop 5 = key.bytes := by
    rw [checked, show 5 = 4 + 1 from rfl, ← List.drop_drop, List.drop_left' (Bytes.length_be _ _)]
    rfl
  have htake : key.bytes.take C.roundedPublicKeySize = key.bytes :=
    List.take_of_length_le (Nat.le_of_eq (Crypto.length_public_key key))
  rw [keyOf, hdrop, htake]
  cases key with
  | mk bytes hlen =>
    simp only [NGMP.ofBytes]
    congr 1
    exact List.take_left' hlen

/-- A game-data body is read as it lies there, of any size that fits a buffer. -/
theorem data_read_view {sequence : UInt16} {data tail : List UInt8} (rest : List UInt8)
    (hd : d.length < 2 ^ 31)
    (hbody : d.drop 5 = Bytes.be 2 sequence.toNat ++ (Bytes.be 4 data.length ++ (data ++ tail))) :
    ConnectionDataPacket.read.run (view d rest 5) =
      .ok ⟨sequence, UInt32.ofNat data.length, data⟩ (view d rest (11 + data.length)) := by
  have hlen : d.length - 5 = 6 + (data.length + tail.length) := by
    rw [← List.length_drop, hbody]
    simp
    omega
  have h7 : d.drop (5 + 2) = Bytes.be 4 data.length ++ (data ++ tail) := by
    rw [← List.drop_drop, hbody, List.drop_left' (Bytes.length_be _ _)]
  have h11 : d.drop (5 + 2 + 4) = data ++ tail := by
    rw [← List.drop_drop, h7, List.drop_left' (Bytes.length_be _ _)]
  have hsize : (UInt32.ofNat data.length).toNat = data.length := by
    rw [UInt32.toNat_ofNat']
    omega
  have hs := readShort_view (r := rest) (i := 5) hd (by omega)
  have hi := readInteger_view (r := rest) (i := 5 + 2) hd (by omega)
  have hg := readBuffer_view (r := rest) (i := 5 + 2 + 4) (n := data.length) hd (by omega)
  rw [hbody, List.take_left' (Bytes.length_be _ _), Bytes.uint16_ofBe_be] at hs
  rw [h7, List.take_left' (Bytes.length_be _ _), ← hsize, Bytes.uint32_ofBe_be] at hi
  rw [h11, List.take_left' rfl, ← hsize] at hg
  rw [ConnectionDataPacket.read, ok_bind hs, ok_bind hi, ok_bind hg, hsize]
  rfl

theorem drop_dataMessage (k : ShortSharedKey) (sequence : UInt16) (data : List UInt8) :
    (sealed C k (dataMessage sequence data)).drop 5 = Bytes.be 2 sequence.toNat ++
      (Bytes.be 4 data.length ++ (data ++ (C.hmacSha256 k (dataMessage sequence data)).bytes)) := by
  rw [sealed, dataMessage, header]
  simp [List.drop_append]

theorem gameDataSizeOf_message (k : ShortSharedKey) (sequence : UInt16) (data : List UInt8) :
    gameDataSizeOf (sealed C k (dataMessage sequence data)) = UInt32.ofNat data.length := by
  have h7 : (sealed C k (dataMessage sequence data)).drop 7 = Bytes.be 4 data.length ++
      (data ++ (C.hmacSha256 k (dataMessage sequence data)).bytes) := by
    rw [← List.drop_drop (i := 2) (j := 5), drop_dataMessage, List.drop_left' (Bytes.length_be _ _)]
  rw [gameDataSizeOf, h7, List.take_left' (Bytes.length_be _ _), Bytes.ofBe_be]
  apply UInt32.toNat_inj.mp
  rw [UInt32.toNat_ofNat', UInt32.toNat_ofNat']
  omega

theorem gameDataOf_message (k : ShortSharedKey) (sequence : UInt16) {data : List UInt8}
    (h : data.length < 2 ^ 32) : gameDataOf (sealed C k (dataMessage sequence data)) = data := by
  have h11 : (sealed C k (dataMessage sequence data)).drop 11 =
      data ++ (C.hmacSha256 k (dataMessage sequence data)).bytes := by
    rw [← List.drop_drop (i := 6) (j := 5), drop_dataMessage, ← List.append_assoc,
      List.drop_left' (by simp)]
  rw [gameDataOf, gameDataSizeOf_message, UInt32.toNat_ofNat', Nat.mod_eq_of_lt h, h11,
    List.take_left]

theorem checkRoomUnsigned_ok {n : Nat} {what : String} {u : Unit}
    (h : (checkRoomUnsigned n what).run b = .ok u b') : b' = b := by
  rw [checkRoomUnsigned, ok_bind (EStateM.run_get _)] at h
  split at h
  · cases h
  · cases h; rfl

theorem load_ok {n : Nat} (h : (load n).run b = .ok bs b') :
    b.index + n ≤ b.data.length ∧ b'.index = b.index + n ∧ b'.data = b.data := by
  rw [load, ok_bind (EStateM.run_get _)] at h
  split at h
  · rename_i hle
    rw [ok_bind (EStateM.run_set _ _)] at h
    cases h
    exact ⟨hle, rfl, rfl⟩
  · cases h

/-- A loop that reads past the allocation does not return. -/
theorem readBytes_ok {n : Nat} (h : (readBytes n).run b = .ok bs b')
    (hb : b.index ≤ b.data.length ∨ 0 < n) : b.index + n ≤ b.data.length := by
  induction n generalizing b bs b' with
  | zero => omega
  | succ n ih =>
    rw [readBytes] at h
    cases hl : (load 1).run b with
    | error e c => rw [error_bind hl] at h; cases h
    | ok x c =>
      obtain ⟨hle, hi, hdata⟩ := load_ok hl
      rw [ok_bind hl] at h
      cases hr : (readBytes n).run c with
      | error e c' => rw [error_bind hr] at h; cases h
      | ok y c' =>
        have := ih hr (.inl (by rw [hi, hdata]; exact hle))
        rw [hi, hdata] at this
        omega

/-- The reads before the payload of a game-data packet. -/
theorem data_read_head {rest : List UInt8} (hd : d.length < 2 ^ 31) (h : 11 ≤ d.length) :
    ConnectionDataPacket.read.run (view d rest 5) = (do
      let gameData ← readBuffer (gameDataSizeOf d).toNat
      return ({ sequence := sequenceOf d, gameDataSize := gameDataSizeOf d, gameData } :
        ConnectionDataPacket) : BufferM _).run (view d rest 11) := by
  have hs := readShort_view (r := rest) (i := 5) hd (by omega)
  have hi := readInteger_view (r := rest) (i := 5 + 2) hd (by omega)
  rw [ConnectionDataPacket.read, ok_bind hs, ok_bind hi]
  rfl

theorem gameDataSizeOf_congr {d' : List UInt8} (h : d'.drop 5 = d.drop 5) :
    gameDataSizeOf d' = gameDataSizeOf d := by
  rw [gameDataSizeOf, gameDataSizeOf, ← List.drop_drop (i := 2) (j := 5), h, List.drop_drop]

theorem gameDataOf_congr {d' : List UInt8} (h : d'.drop 5 = d.drop 5) :
    gameDataOf d' = gameDataOf d := by
  rw [gameDataOf, gameDataOf, gameDataSizeOf_congr h, ← List.drop_drop (i := 6) (j := 5), h,
    List.drop_drop]

/-- A game-data packet is read when the payload it claims ends inside the datagram. -/
theorem data_read_inside (hb : AtBody d b) (hin : 11 + (gameDataSizeOf d).toNat ≤ d.length) :
    ∃ b', ConnectionDataPacket.read.run b =
      .ok ⟨sequenceOf d, gameDataSizeOf d, gameDataOf d⟩ b' := by
  obtain ⟨d', rest, hlen, hdrop, hall, rfl⟩ := hb
  have hd : d'.length < 2 ^ 31 := by simp [receiveSize] at hall; omega
  have hseq : sequenceOf d' = sequenceOf d := by rw [sequenceOf, hdrop, sequenceOf]
  have hg := readBuffer_view (r := rest) (i := 11) (n := (gameDataSizeOf d).toNat) hd (by omega)
  have hdata : (d'.drop 11).take (gameDataSizeOf d).toNat = gameDataOf d := by
    rw [← gameDataOf_congr hdrop, gameDataOf, gameDataSizeOf_congr hdrop]
  rw [hdata] at hg
  rw [data_read_head hd (by omega), gameDataSizeOf_congr hdrop, hseq, ok_bind hg]
  exact ⟨_, rfl⟩

theorem readKey_atBody (hb : AtBody d b) (h : 5 + C.roundedPublicKeySize ≤ d.length) :
    ∃ b', (readBuffer C.roundedPublicKeySize).run b =
      .ok ((d.drop 5).take C.roundedPublicKeySize) b' := by
  obtain ⟨d', rest, hlen, hdrop, hall, rfl⟩ := hb
  have hd : d'.length < 2 ^ 31 := by simp [receiveSize] at hall; omega
  exact ⟨_, by rw [← hdrop]; exact readBuffer_view hd (by omega)⟩

/-- A read past the end of the datagram is refused, or the wrapped check lets it run out of the
allocation. -/
theorem readBuffer_past {rest : List UInt8} {i n : Nat} (hall : (d ++ rest).length ≤ receiveSize)
    (hi : i ≤ receiveSize) (h : d.length < i + n) :
    ∃ e b', (readBuffer n).run (view d rest i) = .error e b' := by
  rw [List.length_append, receiveSize] at hall
  rw [receiveSize] at hi
  by_cases hw : i + n < 2 ^ 32
  · exact ⟨_, _, readBuffer_view_short (by omega) hw⟩
  cases hr : (readBuffer n).run (view d rest i) with
  | error e b' => exact ⟨e, b', rfl⟩
  | ok bs b' =>
    rw [readBuffer] at hr
    cases hc : (checkRoomUnsigned n readText).run (view d rest i) with
    | error e c => rw [error_bind hc] at hr; cases hr
    | ok u c =>
      obtain rfl := checkRoomUnsigned_ok hc
      rw [ok_bind hc] at hr
      have := readBytes_ok hr (.inr (by omega))
      simp only [view_index, view_data, List.length_append] at this
      omega

theorem readKey_short (hb : AtBody d b) (h : d.length < 5 + C.roundedPublicKeySize) :
    ∃ e b', (readBuffer C.roundedPublicKeySize).run b = .error e b' := by
  obtain ⟨d', rest, hlen, -, hall, rfl⟩ := hb
  exact readBuffer_past hall (by decide) (by omega)

/-- A game-data packet is not read when its header or the payload it claims ends past the
datagram. -/
theorem data_read_past (hb : AtBody d b) (hout : d.length < 11 + (gameDataSizeOf d).toNat) :
    ∃ e b', ConnectionDataPacket.read.run b = .error e b' := by
  obtain ⟨d', rest, hlen, hdrop, hall, rfl⟩ := hb
  have hd : d'.length < 2 ^ 31 := by simp [receiveSize] at hall; omega
  by_cases h7 : d'.length < 7
  · exact ⟨_, _, by rw [ConnectionDataPacket.read,
      error_bind (readShort_view_short (by omega) (by omega))]⟩
  by_cases h11 : d'.length < 11
  · have hs := readShort_view (r := rest) (i := 5) hd (by omega)
    exact ⟨_, _, by rw [ConnectionDataPacket.read, ok_bind hs,
      error_bind (readInteger_view_short (by omega) (by omega))]⟩
  · obtain ⟨e, b', hr⟩ := readBuffer_past (i := 11) (n := (gameDataSizeOf d).toNat) hall
      (by decide) (by omega)
    rw [data_read_head hd (by omega), gameDataSizeOf_congr hdrop, error_bind hr]
    exact ⟨e, b', rfl⟩

end GameNetwork.Proofs
