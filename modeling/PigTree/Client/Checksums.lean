import PigTree.Foundation.ShiftRegister
import PigTree.Client.FrameCodec

/-!
# The checksum of frames

Both sides compute the checksum a byte at a time with a table. It is the CRC-32C of the
message, which shifts in one bit after the other, and so it tells messages apart that
differ in a short stretch only.
-/

namespace PigTree

open Foundation ShiftRegister

namespace Checksum

/-- The reversed Castagnoli polynomial. -/
def poly : BitVec 32 := 0x82F63B78#32

/-- The bits of a byte, from the least significant one up. -/
def bitsOfByte (byte : UInt8) : List Bool := (List.range 8).map byte.toBitVec.getLsbD

def bitsOf (data : List UInt8) : List Bool := data.flatMap bitsOfByte

/-- The reflected CRC-32C, one bit after the other. -/
def bitSerial (data : List UInt8) : UInt32 :=
  UInt32.ofBitVec (~~~(feeds poly (BitVec.allOnes 32) (bitsOf data)))

/-! ### Tables -/

theorem toBitVec_tableStep (crc : UInt32) :
    (Crc32c.tableStep crc).toBitVec = step poly crc.toBitVec := by
  have low : (crc &&& 1).toBitVec = BitVec.setWidth 32 (BitVec.ofBool (crc.toBitVec.getLsbD 0)) := by
    rw [UInt32.toBitVec_and]
    exact BitVec.and_one_eq_setWidth_ofBool_getLsbD
  rw [Crc32c.tableStep, step]
  cases bit : crc.toBitVec.getLsbD 0 with
  | false =>
      have even : crc &&& 1 = 0 := UInt32.toBitVec_inj.mp (by rw [low, bit]; rfl)
      rw [if_neg (by simp [even]), if_neg Bool.false_ne_true]
      rfl
  | true =>
      have odd : crc &&& 1 ≠ 0 := by
        intro even
        rw [even, bit] at low
        revert low
        decide
      rw [if_pos odd, if_pos rfl]
      rfl

theorem toBitVec_tableEntry (idx : ℕ) :
    (Crc32c.tableEntry idx).toBitVec = steps poly 8 (UInt32.ofNat idx).toBitVec := by
  have rounds (items : List ℕ) (crc : UInt32) :
      (items.foldl (fun crc _ => Crc32c.tableStep crc) crc).toBitVec =
        steps poly items.length crc.toBitVec := by
    induction items generalizing crc with
    | nil => rfl
    | cons item items ih =>
        rw [List.foldl_cons, ih, toBitVec_tableStep]
        rfl
  exact rounds (List.range 8) _

theorem value_bitsOfByte (byte : UInt8) :
    value 32 (bitsOfByte byte) = byte.toUInt32.toBitVec := by
  apply BitVec.eq_of_getLsbD_eq
  intro idx inside
  rw [getLsbD_value _ _ inside, UInt8.toBitVec_toUInt32, BitVec.getLsbD_setWidth, bitsOfByte]
  by_cases low : idx < 8
  · simp [inside, low]
  · have absent : byte.toBitVec.getLsbD idx = false :=
      BitVec.getLsbD_of_ge _ _ (Nat.le_of_not_lt low)
    simp [absent, low]

theorem getLsbD_mask (idx : ℕ) : (0xFF#32).getLsbD idx = decide (idx < 8) := by
  have mask : 0xFF#32 = (BitVec.allOnes 8).setWidth 32 := rfl
  rw [mask, BitVec.getLsbD_setWidth, BitVec.getLsbD_allOnes]
  by_cases low : idx < 8
  · simp [low]
    omega
  · simp [low]

/-- Eight steps shift the upper bits down and look the lowest byte up. -/
theorem steps_eight (register : BitVec 32) :
    steps poly 8 register = (register >>> 8) ^^^ steps poly 8 (register &&& 0xFF#32) := by
  have upper : steps poly 8 (register ^^^ (register &&& 0xFF#32)) = register >>> 8 := by
    rw [steps_of_low_zero]
    · apply BitVec.eq_of_getLsbD_eq
      intro idx inside
      have above : ¬8 + idx < 8 := by omega
      simp only [BitVec.getLsbD_ushiftRight, BitVec.getLsbD_xor, BitVec.getLsbD_and, getLsbD_mask,
        above, decide_false, Bool.and_false, Bool.xor_false]
    · intro idx low
      simp [getLsbD_mask, low]
  rw [← upper, ← steps_xor, BitVec.xor_assoc, BitVec.xor_self, BitVec.xor_zero]

/-- The table does eight steps of the register at once. -/
theorem toBitVec_update (crc : UInt32) (byte : UInt8) :
    (Crc32c.update crc byte).toBitVec = feeds poly crc.toBitVec (bitsOfByte byte) := by
  have found : Crc32c.table.getD ((crc ^^^ byte.toUInt32) &&& 0xFF).toNat 0 =
      Crc32c.tableEntry ((crc ^^^ byte.toUInt32) &&& 0xFF).toNat := by
    have small : ((crc ^^^ byte.toUInt32) &&& 0xFF).toNat < 256 := by
      rw [UInt32.toNat_and]
      exact Nat.lt_succ_of_le Nat.and_le_right
    rw [Crc32c.table, List.getD_eq_getElem?_getD, List.getElem?_map, List.getElem?_range small]
    rfl
  have shifted : (crc ^^^ byte.toUInt32).toBitVec >>> 8 = (crc >>> 8).toBitVec := by
    apply BitVec.eq_of_getLsbD_eq
    intro idx inside
    have right : (crc >>> 8).toBitVec = crc.toBitVec >>> 8 := rfl
    have above : byte.toBitVec.getLsbD (8 + idx) = false :=
      BitVec.getLsbD_of_ge _ _ (Nat.le_add_right _ _)
    rw [right, BitVec.getLsbD_ushiftRight, BitVec.getLsbD_ushiftRight, UInt32.toBitVec_xor,
      BitVec.getLsbD_xor, UInt8.toBitVec_toUInt32, BitVec.getLsbD_setWidth, above, Bool.and_false,
      Bool.xor_false]
  rw [feeds_eq_steps poly (by simp [bitsOfByte]), value_bitsOfByte, ← UInt32.toBitVec_xor]
  have length : (bitsOfByte byte).length = 8 := by simp [bitsOfByte]
  rw [length, steps_eight, shifted, Crc32c.update, UInt32.toBitVec_xor, found, toBitVec_tableEntry,
    UInt32.ofNat_toNat]
  rfl

theorem toBitVec_foldl_update (data : List UInt8) (crc : UInt32) :
    (data.foldl Crc32c.update crc).toBitVec = feeds poly crc.toBitVec (bitsOf data) := by
  induction data generalizing crc with
  | nil => rfl
  | cons byte data ih =>
      rw [List.foldl_cons, ih, toBitVec_update]
      simp [bitsOf, feeds]

theorem compute_eq_bitSerial (data : List UInt8) : Crc32c.compute data = bitSerial data := by
  apply UInt32.toBitVec_inj.mp
  have run := toBitVec_foldl_update data (~~~0)
  rw [Crc32c.compute, bitSerial, UInt32.toBitVec_not, run]
  rfl

theorem update_flatten (chunks : List (List UInt8)) (crc : UInt32) :
    chunks.foldl Client.Crc32C.update crc = Client.Crc32C.update crc chunks.flatten := by
  induction chunks generalizing crc with
  | nil => rfl
  | cons chunk chunks ih =>
      rw [List.foldl_cons, ih, List.flatten_cons]
      simp [Client.Crc32C.update]

/-! ### Bursts -/

/-- All differences lie within 32 consecutive bits. -/
def DifferInBurst (left right : List UInt8) : Prop :=
  ∃ start, ∀ idx, (bitsOf left)[idx]? ≠ (bitsOf right)[idx]? → start ≤ idx ∧ idx < start + 32

theorem bitsOf_injective {left right : List UInt8} (same : bitsOf left = bitsOf right) :
    left = right := by
  induction left generalizing right with
  | nil =>
      cases right with
      | nil => rfl
      | cons byte right => simp [bitsOf, bitsOfByte] at same
  | cons first left ih =>
      cases right with
      | nil => simp [bitsOf, bitsOfByte] at same
      | cons second right =>
          rw [bitsOf, bitsOf, List.flatMap_cons, List.flatMap_cons] at same
          rcases List.append_inj same (by simp [bitsOfByte]) with ⟨heads, tails⟩
          have bytes : first.toUInt32 = second.toUInt32 :=
            UInt32.toBitVec_inj.mp (by rw [← value_bitsOfByte, heads, value_bitsOfByte])
          rw [ih tails, UInt8.toUInt32_inj.mp bytes]

theorem length_bitsOf (data : List UInt8) : (bitsOf data).length = 8 * data.length := by
  simp [bitsOf, bitsOfByte, List.length_flatMap, Nat.mul_comm]

theorem compute_ne_of_burst {left right : List UInt8} (length : left.length = right.length)
    (different : left ≠ right) (burst : DifferInBurst left right) :
    Crc32c.compute left ≠ Crc32c.compute right := by
  rcases burst with ⟨start, within⟩
  have bitsLength : (bitsOf left).length = (bitsOf right).length := by
    rw [length_bitsOf, length_bitsOf, length]
  have front : (bitsOf left).take start = (bitsOf right).take start := by
    apply List.ext_getElem?
    intro idx
    simp only [List.getElem?_take]
    split
    · next before =>
        by_contra differ
        exact absurd (within idx differ).1 (Nat.not_le_of_lt before)
    · rfl
  have rest : ((bitsOf left).drop start).drop 32 = ((bitsOf right).drop start).drop 32 := by
    apply List.ext_getElem?
    intro idx
    simp only [List.drop_drop, List.getElem?_drop]
    by_contra differ
    have close := (within _ differ).2
    omega
  have parts (bits : List Bool) :
      bits = bits.take start ++ (bits.drop start).take 32 ++ (bits.drop start).drop 32 := by
    simp
  have stretch : ((bitsOf left).drop start).take 32 ≠ ((bitsOf right).drop start).take 32 := by
    intro same
    apply different
    apply bitsOf_injective
    rw [parts (bitsOf left), parts (bitsOf right), front, same, rest]
  have top : poly.msb = true := rfl
  have registers := feeds_ne_of_burst top (BitVec.allOnes 32) ((bitsOf left).take start)
    (((bitsOf left).drop start).drop 32) (by simp [bitsLength]) (List.length_take_le _ _) stretch
  rw [← parts, front, rest, ← parts] at registers
  intro same
  rw [compute_eq_bitSerial, compute_eq_bitSerial] at same
  apply registers
  have complements := congrArg UInt32.toBitVec same
  exact BitVec.not_inj.mp complements

/-- The frame checksum is CRC-32C on both sides, can be computed in pieces, and detects
every burst of at most 32 bits. -/
theorem checksum_detects_bursts :
    (∀ data, Crc32c.compute data = bitSerial data ∧
      Crc32c.compute data = Client.Crc32C.compute data) ∧
    (∀ chunks : List (List UInt8),
      Client.Crc32C.finalize (chunks.foldl Client.Crc32C.update 0xFFFFFFFF) =
        Client.Crc32C.compute chunks.flatten) ∧
    ∀ left right : List UInt8, left.length = right.length → left ≠ right →
      DifferInBurst left right → Crc32c.compute left ≠ Crc32c.compute right := by
  refine ⟨fun data => ⟨compute_eq_bitSerial data, (Client.Crc32C.compute_eq data).symm⟩,
    fun chunks => ?_, fun left right => compute_ne_of_burst⟩
  rw [update_flatten]
  rfl

/-- Flipping the last bit of one byte and the first bit of the next is noticed. -/
theorem checksum_detects_bursts_flipped :
    Crc32c.compute [0x50, 0x47, 0x46, 0x52] ≠ Crc32c.compute [0x50, 0xC7, 0x47, 0x52] := by
  refine checksum_detects_bursts.2.2 _ _ rfl (by decide) ⟨15, ?_⟩
  have bits : ∀ idx < 32, (bitsOf [0x50, 0x47, 0x46, 0x52])[idx]? ≠
      (bitsOf [0x50, 0xC7, 0x47, 0x52])[idx]? → 15 ≤ idx ∧ idx < 15 + 32 := by
    decide +kernel
  intro idx differ
  by_cases inside : idx < 32
  · exact bits idx inside differ
  · have left : (bitsOf [0x50, 0x47, 0x46, 0x52]).length = 32 := rfl
    have right : (bitsOf [0x50, 0xC7, 0x47, 0x52]).length = 32 := rfl
    have beyond := Nat.le_of_not_lt inside
    apply absurd _ differ
    rw [List.getElem?_eq_none (left.trans_le beyond), List.getElem?_eq_none (right.trans_le beyond)]

end Checksum

end PigTree
