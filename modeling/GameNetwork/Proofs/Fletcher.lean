import GameNetwork.ErrorDetection
import GameNetwork.Lib.RunningSums

namespace GameNetwork.Proofs
open RunningSums

variable {sums : UInt32 × UInt32} {word : UInt16} {n : Nat}

/-- Neither addition of the loop body leaves 32 bits. -/
def Fits (sums : UInt32 × UInt32) (word : UInt16) : Prop :=
  sums.1.toNat + word.toNat < 2 ^ 32 ∧
    sums.2.toNat + (sums.1 + word.toUInt32).toNat < 2 ^ 32

/-- The same for every turn of an inner loop of `Fletcher32_improved`. -/
def SumsFit : UInt32 × UInt32 → List UInt16 → Prop
  | _, [] => True
  | sums, word :: p_data => Fits sums word ∧ SumsFit (sumWords sums [word]) p_data

/-- The same for every turn of its outer loop and of the loop behind it. -/
def BlocksFit : Nat → UInt32 × UInt32 → List UInt16 → Prop
  | 0, sums, p_data => SumsFit sums p_data
  | blocks + 1, sums, p_data =>
    SumsFit sums (p_data.take 360) ∧
      BlocksFit blocks (reduceSums (sumWords sums (p_data.take 360))) (p_data.drop 360)

/-- The two accumulators as numbers. -/
def values (sums : UInt32 × UInt32) : Nat × Nat := (sums.1.toNat, sums.2.toNat)

/-- What the accumulators can be after `n` words of a block that starts reduced. -/
def InBlock (n : Nat) (sums : UInt32 × UInt32) : Prop := Within 65535 65534 65534 n (values sums)

/-- A block of 360 words fits, whatever it starts from. -/
theorem InBlock.fits (h : InBlock n sums) (hn : n < 360) (word : UInt16) : Fits sums word := by
  have hw : word.toNat < 65536 := word.toNat_lt
  have h1 := h.fst
  have h2 := h.snd
  simp only [values] at h1 h2
  have hsq : n * (n + 1) ≤ 359 * 360 := Nat.mul_le_mul (by omega) (by omega)
  have hlt : sums.1.toNat + word.toNat < 2 ^ 32 := by omega
  refine ⟨hlt, ?_⟩
  rw [UInt32.toNat_add, UInt16.toNat_toUInt32, Nat.mod_eq_of_lt hlt]
  have := Nat.mul_le_mul_right 65535 hsq
  omega

theorem Fits.values (h : Fits sums word) :
    values (sumWords sums [word]) = add (values sums) word.toNat := by
  have hsum : (sums.1 + word.toUInt32).toNat = sums.1.toNat + word.toNat := by
    rw [UInt32.toNat_add, UInt16.toNat_toUInt32, Nat.mod_eq_of_lt h.1]
  simp only [Proofs.values, sumWords, List.foldl_cons, List.foldl_nil, add]
  rw [UInt32.toNat_add sums.2, Nat.mod_eq_of_lt h.2, hsum]

theorem InBlock.next (h : InBlock n sums) (hn : n < 360) (word : UInt16) :
    InBlock (n + 1) (sumWords sums [word]) := by
  have hw : word.toNat < 65536 := word.toNat_lt
  rw [InBlock, (h.fits hn word).values]
  exact Within.add h (by omega)

/-- Up to 360 words are added without a wrap, so the accumulators are the running sums. -/
theorem InBlock.words (p_data : List UInt16) (h : InBlock n sums) (hn : n + p_data.length ≤ 360) :
    SumsFit sums p_data ∧
      values (sumWords sums p_data) = total (values sums) (p_data.map UInt16.toNat) := by
  induction p_data generalizing n sums with
  | nil => exact ⟨trivial, rfl⟩
  | cons word p_data ih =>
    rw [List.length_cons] at hn
    obtain ⟨hf, hv⟩ := ih (h.next (by omega) word) (by omega)
    have hw := (h.fits (by omega) word).values
    refine ⟨⟨h.fits (by omega) word, hf⟩, ?_⟩
    change values (sumWords (sumWords sums [word]) p_data) = _
    rw [hv, hw]
    rfl

theorem values_reduceSums (sums : UInt32 × UInt32) :
    values (reduceSums sums) = reduce 65535 (values sums) := by
  simp [values, reduceSums, reduce]

theorem inBlock_reduced (sums : UInt32 × UInt32) : InBlock 0 (reduceSums sums) := by
  rw [InBlock, values_reduceSums]
  constructor
  · simp only [reduce]
    omega
  · simp only [reduce]
    omega

/-- Every block fits, and the result is that of reducing once at the end. -/
theorem InBlock.blocks {blocks : Nat} {p_data : List UInt16} (h : InBlock 0 sums)
    (hl : p_data.length < 360 * (blocks + 1)) :
    BlocksFit blocks sums p_data ∧
      values (fletcherBlocks blocks sums p_data) =
        reduce 65535 (total (values sums) (p_data.map UInt16.toNat)) := by
  induction blocks generalizing sums p_data with
  | zero =>
    obtain ⟨hf, hv⟩ := h.words p_data (by omega)
    exact ⟨hf, by rw [fletcherBlocks, values_reduceSums, hv]⟩
  | succ blocks ih =>
    obtain ⟨hf, hv⟩ := h.words (p_data.take 360) (by simp)
    have hlast : (p_data.drop 360).length < 360 * (blocks + 1) := by
      rw [List.length_drop]
      omega
    obtain ⟨hfs, hvs⟩ := ih (inBlock_reduced (sumWords sums (p_data.take 360))) hlast
    refine ⟨⟨hf, hfs⟩, ?_⟩
    rw [fletcherBlocks, hvs, values_reduceSums, hv, reduce_total, total, total, ← List.foldl_append,
      ← List.map_append, List.take_append_drop, total]

/-- The accumulators of a whole call. -/
theorem improved_values (p_data : List UInt16) :
    BlocksFit (p_data.length / 360) (0, 0) p_data ∧
      values (fletcherBlocks (p_data.length / 360) (0, 0) p_data) =
        reduce 65535 (total (0, 0) (p_data.map UInt16.toNat)) :=
  (inBlock_reduced (0, 0)).blocks (by omega)

/-- One turn of the loops of `Adler32` and `Fletcher32`, which differ in the modulus. -/
def turn (m : UInt32) (sums : UInt32 × UInt32) (word : UInt16) : UInt32 × UInt32 :=
  ((sums.1 + word.toUInt32) % m, (sums.2 + (sums.1 + word.toUInt32) % m) % m)

/-- From reduced accumulators a turn is one of the running sums. -/
theorem turn_values {m : UInt32} (hpos : 0 < m.toNat) (hle : m.toNat ≤ 65536) {s : Nat × Nat}
    (h : values sums = reduce m.toNat s) (word : UInt16) :
    values (turn m sums word) = reduce m.toNat (add (reduce m.toNat s) word.toNat) := by
  have hw : word.toNat < 65536 := word.toNat_lt
  have h1 : sums.1.toNat = s.1 % m.toNat := congrArg Prod.fst h
  have h2 : sums.2.toNat = s.2 % m.toNat := congrArg Prod.snd h
  have hlt1 := Nat.mod_lt s.1 hpos
  have hlt2 := Nat.mod_lt s.2 hpos
  have hsum : ((sums.1 + word.toUInt32) % m).toNat = (s.1 % m.toNat + word.toNat) % m.toNat := by
    rw [UInt32.toNat_mod, UInt32.toNat_add, UInt16.toNat_toUInt32, h1,
      Nat.mod_eq_of_lt (a := s.1 % m.toNat + word.toNat) (by omega)]
  have hlt := Nat.mod_lt (s.1 % m.toNat + word.toNat) hpos
  have hsum' : ((sums.2 + (sums.1 + word.toUInt32) % m) % m).toNat =
      (s.2 % m.toNat + (s.1 % m.toNat + word.toNat)) % m.toNat := by
    rw [UInt32.toNat_mod, UInt32.toNat_add, hsum, h2,
      Nat.mod_eq_of_lt (a := s.2 % m.toNat + _) (by omega)]
    exact Nat.add_mod_mod _ _ _
  exact Prod.ext hsum hsum'

theorem foldl_turn {m : UInt32} (hpos : 0 < m.toNat) (hle : m.toNat ≤ 65536) {s : Nat × Nat}
    (h : values sums = reduce m.toNat s) (p_data : List UInt16) :
    values (p_data.foldl (turn m) sums) = reduce m.toNat (total s (p_data.map UInt16.toNat)) := by
  induction p_data generalizing sums s with
  | nil => exact h
  | cons word p_data ih =>
    rw [List.foldl_cons, ih (turn_values hpos hle h word), List.map_cons]
    change reduce m.toNat (total (add (reduce m.toNat s) word.toNat) _) =
      reduce m.toNat (total (add s word.toNat) _)
    rw [← reduce_total, reduce_add, reduce_total]

theorem foldl_addReduced (p_data : List UInt16) : values (p_data.foldl addReduced (0, 0)) =
    reduce 65535 (total (0, 0) (p_data.map UInt16.toNat)) :=
  foldl_turn (by decide) (by decide) rfl p_data

/-- Delaying the modulo to every 360 words changes no checksum, and no addition wraps. -/
theorem fletcher_delayed (p_data : List UInt16) :
    fletcher32Improved p_data = fletcher32 p_data ∧
      BlocksFit (p_data.length / 360) (0, 0) p_data := by
  obtain ⟨hf, hv⟩ := improved_values p_data
  have hv' := foldl_addReduced p_data
  have hsame : fletcherBlocks (p_data.length / 360) (0, 0) p_data =
      p_data.foldl addReduced (0, 0) := by
    have h : values (fletcherBlocks (p_data.length / 360) (0, 0) p_data) =
        values (p_data.foldl addReduced (0, 0)) := hv.trans hv'.symm
    exact Prod.ext (UInt32.toNat_inj.mp (congrArg Prod.fst h))
      (UInt32.toNat_inj.mp (congrArg Prod.snd h))
  refine ⟨?_, hf⟩
  rw [fletcher32Improved, hsame, fletcher32]

end GameNetwork.Proofs
