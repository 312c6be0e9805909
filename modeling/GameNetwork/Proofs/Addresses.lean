import GameNetwork.SockAddr

namespace GameNetwork.Proofs

variable {order other : HostOrder} {a b : Address} {n : Nat} {bytes : List UInt8}

theorem memory_load (h : bytes.length = n) (order : HostOrder) :
    order.memory n (order.load bytes) = bytes := by
  cases order with
  | littleEndian =>
    rw [HostOrder.memory, HostOrder.load, Bytes.be_ofBe_length (by rw [List.length_reverse, h]),
      List.reverse_reverse]
  | bigEndian => rw [HostOrder.memory, HostOrder.load, Bytes.be_ofBe_length h]

theorem load_lt (order : HostOrder) (bytes : List UInt8) :
    order.load bytes < 256 ^ bytes.length := by
  cases order with
  | littleEndian =>
    have hlt := Bytes.ofBe_lt bytes.reverse
    rwa [List.length_reverse] at hlt
  | bigEndian => exact Bytes.ofBe_lt bytes

theorem loaded_uint32 (h : bytes.length = 4) (order : HostOrder) :
    (UInt32.ofNat (order.load bytes)).toNat = order.load bytes := by
  have hlt : order.load bytes < 2 ^ 32 := by
    have := load_lt order bytes
    rwa [h] at this
  rw [UInt32.toNat_ofNat', Nat.mod_eq_of_lt hlt]

theorem loaded_uint16 (h : bytes.length = 2) (order : HostOrder) :
    (UInt16.ofNat (order.load bytes)).toNat = order.load bytes := by
  have hlt : order.load bytes < 2 ^ 16 := by
    have := load_lt order bytes
    rwa [h] at this
  rw [UInt16.toNat_ofNat', Nat.mod_eq_of_lt hlt]

/-- A number in network order lies the same way in every memory. -/
theorem htonl_memory (order : HostOrder) (x : UInt32) :
    order.memory 4 (order.htonl x).toNat = Bytes.be 4 x.toNat := by
  rw [HostOrder.htonl, loaded_uint32 (Bytes.length_be 4 _), memory_load (Bytes.length_be 4 _)]

theorem htons_memory (order : HostOrder) (x : UInt16) :
    order.memory 2 (order.htons x).toNat = Bytes.be 2 x.toNat := by
  rw [HostOrder.htons, loaded_uint16 (Bytes.length_be 2 _), memory_load (Bytes.length_be 2 _)]

theorem ntohl_load (order : HostOrder) (x : UInt32) :
    order.ntohl (UInt32.ofNat (order.load (Bytes.be 4 x.toNat))) = x := by
  rw [HostOrder.ntohl, loaded_uint32 (Bytes.length_be 4 _), memory_load (Bytes.length_be 4 _),
    Bytes.uint32_ofBe_be]

theorem ntohs_load (order : HostOrder) (x : UInt16) :
    order.ntohs (UInt16.ofNat (order.load (Bytes.be 2 x.toNat))) = x := by
  rw [HostOrder.ntohs, loaded_uint16 (Bytes.length_be 2 _), memory_load (Bytes.length_be 2 _),
    Bytes.uint16_ofBe_be]

/-- What `Send` puts into the headers: the port, then the address. -/
theorem sent_bytes (order : HostOrder) (a : Address) :
    (SockAddrIn.toSend order a).bytes order =
      Bytes.be 2 a.port.toNat ++ Bytes.be 4 a.address.toNat := by
  rw [SockAddrIn.bytes, SockAddrIn.toSend, Address.getNPort, Address.getAddress, htons_memory,
    htonl_memory]

/-- The four parts are the bytes of the address, most significant first. -/
theorem parts_eq (a : Address) :
    Bytes.be 4 a.address.toNat = [a.getA, a.getB, a.getC, a.getD] := by
  have hlow (x : UInt32) : (x &&& 0xFF).toUInt8 = x.toUInt8 := by
    rw [← UInt8.toNat_inj]
    have hand := Nat.and_two_pow_sub_one_eq_mod (x.toNat % 256) 8
    simpa using hand
  simp only [Bytes.be, Address.getA, Address.getB, Address.getC, Address.getD, hlow]
  have hbyte (k : Nat) (x : UInt32) (hx : x.toNat = a.address.toNat / 256 ^ k) :
      UInt8.ofNat (a.address.toNat / 256 ^ k) = x.toUInt8 := by
    rw [← UInt8.toNat_inj, UInt8.toNat_ofNat', UInt32.toNat_toUInt8, hx]
  rw [hbyte 3 (a.address >>> 24) (by simp [Nat.shiftRight_eq_div_pow]),
    hbyte 2 (a.address >>> 16) (by simp [Nat.shiftRight_eq_div_pow]),
    hbyte 1 (a.address >>> 8) (by simp [Nat.shiftRight_eq_div_pow]),
    hbyte 0 a.address (by simp)]

/-- The parts of an address are what it can be made of. -/
theorem parts_address {a b : Address} (hA : a.getA = b.getA) (hB : a.getB = b.getB)
    (hC : a.getC = b.getC) (hD : a.getD = b.getD) : a.address = b.address := by
  have h : Bytes.be 4 a.address.toNat = Bytes.be 4 b.address.toNat := by
    rw [parts_eq, parts_eq, hA, hB, hC, hD]
  exact UInt32.toNat_inj.mp (Bytes.be_injective a.address.toNat_lt b.address.toNat_lt h)

/-- A datagram carries its destination and its source the same way between any two hosts: the
headers have the port and then the four parts, and the sender that a host of the other byte order
reports is the address that was sent. -/
theorem address_crosses (order other : HostOrder) (a : Address) :
    (SockAddrIn.toSend order a).bytes order =
      Bytes.be 2 a.port.toNat ++ [a.getA, a.getB, a.getC, a.getD] ∧
    (SockAddrIn.received other ((SockAddrIn.toSend order a).bytes order)).sender other = a := by
  rw [sent_bytes]
  refine ⟨by rw [parts_eq], ?_⟩
  rw [SockAddrIn.sender, SockAddrIn.received, List.take_left' (Bytes.length_be 2 _),
    List.drop_left' (Bytes.length_be 2 _), ntohl_load, ntohs_load]

theorem toStringNat_injective {n m : Nat} (h : Address.toStringNat n = Address.toStringNat m) :
    n = m := by
  have hvalue := congrArg (Nat.ofDigitChars 10 · 0) h
  simpa [Address.toStringNat, Nat.ofDigitChars_ten_toDigits] using hvalue

/-- A separator is no digit. -/
theorem not_mem_toStringNat {c : Char} (hc : c.isDigit = false) (n : Nat) :
    c ∉ Address.toStringNat n := by
  intro hmem
  rw [Nat.isDigit_of_mem_toDigits (by decide) (by decide) hmem] at hc
  cases hc

/-- What comes before the first separator is determined. -/
theorem split_first {α : Type} {c : α} {xs xs' ys ys' : List α} (hx : c ∉ xs) (hx' : c ∉ xs')
    (h : xs ++ c :: ys = xs' ++ c :: ys') : xs = xs' ∧ ys = ys' := by
  induction xs generalizing xs' with
  | nil =>
    cases xs' with
    | nil => exact ⟨rfl, (List.cons.inj h).2⟩
    | cons x' xs' => exact absurd ((List.cons.inj h).1 ▸ List.mem_cons_self) hx'
  | cons x xs ih =>
    cases xs' with
    | nil => exact absurd ((List.cons.inj h).1 ▸ List.mem_cons_self) hx
    | cons x' xs' =>
      obtain ⟨rfl, hrest⟩ := List.cons.inj h
      obtain ⟨rfl, hys⟩ := ih (List.not_mem_of_not_mem_cons hx) (List.not_mem_of_not_mem_cons hx')
        hrest
      exact ⟨rfl, hys⟩

/-- So a number and the text behind a separator can be told apart. -/
theorem field_injective {c : Char} (hc : c.isDigit = false) {n m : Nat} {xs ys : List Char}
    (h : Address.toStringNat n ++ c :: xs = Address.toStringNat m ++ c :: ys) :
    n = m ∧ xs = ys := by
  obtain ⟨hn, hrest⟩ := split_first (not_mem_toStringNat hc n) (not_mem_toStringNat hc m) h
  exact ⟨toStringNat_injective hn, hrest⟩

/-- Addresses have the same text only if they are the same. -/
theorem text_tells_apart {a b : Address} : a.toText = b.toText ↔ a = b := by
  constructor
  · intro h
    obtain ⟨hA, h⟩ := field_injective (by decide) h
    obtain ⟨hB, h⟩ := field_injective (by decide) h
    obtain ⟨hC, h⟩ := field_injective (by decide) h
    obtain ⟨hD, h⟩ := field_injective (by decide) h
    have hport : a.port = b.port := UInt16.toNat_inj.mp (toStringNat_injective h)
    have haddress := parts_address (UInt8.toNat_inj.mp hA) (UInt8.toNat_inj.mp hB)
      (UInt8.toNat_inj.mp hC) (UInt8.toNat_inj.mp hD)
    cases a
    cases b
    cases hport
    cases haddress
    rfl
  · rintro rfl
    rfl

end GameNetwork.Proofs
