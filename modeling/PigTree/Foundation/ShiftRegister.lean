import Mathlib.Data.BitVec
import Mathlib.Logic.Function.Iterate

/-!
# Shift registers with feedback

The register of a reflected cyclic redundancy check shifts right and adds its polynomial
when a one falls out. A step is linear; it is injective when the polynomial has its top
bit set, so that a register never forgets a short difference between two bit strings.
-/

namespace Foundation.ShiftRegister

variable {w : ℕ} (poly : BitVec w)

def step (c : BitVec w) : BitVec w :=
  if c.getLsbD 0 then (c >>> 1) ^^^ poly else c >>> 1

def steps (count : ℕ) (c : BitVec w) : BitVec w := (step poly)^[count] c

/-- Shift a bit of the message in. -/
def feed (c : BitVec w) (bit : Bool) : BitVec w :=
  step poly (c ^^^ BitVec.setWidth w (BitVec.ofBool bit))

def feeds (c : BitVec w) (bits : List Bool) : BitVec w := bits.foldl (feed poly) c

/-! ### Linearity -/

theorem step_xor (left right : BitVec w) :
    step poly (left ^^^ right) = step poly left ^^^ step poly right := by
  unfold step
  rw [BitVec.getLsbD_xor, BitVec.ushiftRight_xor_distrib]
  cases left.getLsbD 0 <;> cases right.getLsbD 0
  · rfl
  · exact BitVec.xor_assoc _ _ _
  · simp only [Bool.xor_false, if_true, Bool.false_eq_true, if_false]
    rw [BitVec.xor_assoc, BitVec.xor_assoc, BitVec.xor_comm poly]
  · simp only [Bool.xor_self, Bool.false_eq_true, if_false, if_true]
    rw [BitVec.xor_assoc, BitVec.xor_comm (right >>> 1), ← BitVec.xor_assoc poly,
      BitVec.xor_self, BitVec.zero_xor]

theorem steps_xor (count : ℕ) (left right : BitVec w) :
    steps poly count (left ^^^ right) = steps poly count left ^^^ steps poly count right := by
  induction count generalizing left right with
  | zero => rfl
  | succ count ih =>
      have peel (c : BitVec w) : steps poly (count + 1) c = steps poly count (step poly c) := rfl
      rw [peel, peel, peel, step_xor, ih]

theorem step_of_even {c : BitVec w} (even : c.getLsbD 0 = false) : step poly c = c >>> 1 := by
  rw [step, even]
  rfl

/-- While zeros fall out, the register only shifts. -/
theorem steps_of_low_zero {count : ℕ} {c : BitVec w}
    (low : ∀ idx < count, c.getLsbD idx = false) : steps poly count c = c >>> count := by
  induction count generalizing c with
  | zero => simp [steps]
  | succ count ih =>
      have peel : steps poly (count + 1) c = steps poly count (step poly c) := rfl
      rw [peel, step_of_even poly (low 0 (Nat.succ_pos _)), ih]
      · rw [Nat.add_comm count 1, BitVec.shiftRight_add]
      · intro idx inside
        rw [BitVec.getLsbD_ushiftRight]
        exact low _ (by omega)

/-! ### Messages -/

/-- The number spelled by bits, the first of which is the lowest. -/
def value (w : ℕ) : List Bool → BitVec w
  | [] => 0#w
  | bit :: bits => BitVec.setWidth w (BitVec.ofBool bit) ^^^ (value w bits <<< 1)

theorem getLsbD_value (bits : List Bool) (idx : ℕ) (inside : idx < w) :
    (value w bits).getLsbD idx = bits.getD idx false := by
  induction bits generalizing idx with
  | nil => simp [value]
  | cons bit bits ih =>
      rw [value, BitVec.getLsbD_xor, BitVec.getLsbD_setWidth, BitVec.getLsbD_shiftLeft]
      cases idx with
      | zero => simp [inside]
      | succ idx =>
          have later := ih idx (Nat.lt_of_succ_lt inside)
          simp [inside, later]

/-- Shifting a register left and back loses nothing when its top bit is clear. -/
theorem step_shiftLeft {c : BitVec w} (clear : c.getLsbD (w - 1) = false) :
    step poly (c <<< 1) = c := by
  rw [step_of_even poly (by simp)]
  apply BitVec.eq_of_getLsbD_eq
  intro idx inside
  rw [BitVec.getLsbD_ushiftRight, BitVec.getLsbD_shiftLeft]
  by_cases last : idx = w - 1
  · rw [last, clear]
    simp
    omega
  · have later : 1 + idx < w := by omega
    simp [later]

/-- Shifting in the bits of a message is adding the message first and then shifting. -/
theorem feeds_eq_steps {bits : List Bool} (short : bits.length ≤ w) (c : BitVec w) :
    feeds poly c bits = steps poly bits.length (c ^^^ value w bits) := by
  induction bits generalizing c with
  | nil => simp [feeds, steps, value]
  | cons bit bits ih =>
      rw [List.length_cons] at short
      have clear : (value w bits).getLsbD (w - 1) = false := by
        rw [getLsbD_value bits _ (by omega)]
        simp [List.getD_eq_getElem?_getD, List.getElem?_eq_none (show bits.length ≤ w - 1 by omega)]
      have rest : feeds poly c (bit :: bits) = feeds poly (feed poly c bit) bits := rfl
      have peel (c : BitVec w) :
          steps poly (bit :: bits).length c = steps poly bits.length (step poly c) := rfl
      rw [rest, ih (by omega), peel, value, ← BitVec.xor_assoc, step_xor, step_shiftLeft poly clear,
        feed]

/-! ### Injectivity -/

variable {poly}

theorem step_eq_zero (top : poly.msb = true) {c : BitVec w} (zero : step poly c = 0#w) :
    c = 0#w := by
  have positive : 0 < w := by
    rcases Nat.eq_zero_or_pos w with rfl | positive
    · rw [BitVec.msb_eq_getLsbD_last, BitVec.getLsbD_of_ge _ _ (Nat.zero_le _)] at top
      cases top
    · exact positive
  rw [step] at zero
  cases low : c.getLsbD 0 with
  | true =>
      -- The top bit of the polynomial would have come from outside the register.
      rw [low, if_pos rfl, BitVec.xor_eq_zero_iff] at zero
      rw [← zero, BitVec.msb_eq_getLsbD_last, BitVec.getLsbD_ushiftRight,
        BitVec.getLsbD_of_ge _ _ (by omega)] at top
      cases top
  | false =>
      rw [low, if_neg Bool.false_ne_true] at zero
      apply BitVec.eq_of_getLsbD_eq
      intro idx inside
      cases idx with
      | zero => simpa using low
      | succ idx =>
          have shifted := congrArg (fun register => register.getLsbD idx) zero
          simpa [BitVec.getLsbD_ushiftRight, Nat.add_comm] using shifted

theorem step_injective (top : poly.msb = true) : Function.Injective (step poly) := by
  intro left right same
  have difference : step poly (left ^^^ right) = 0#w := by
    rw [step_xor, same, BitVec.xor_self]
  exact BitVec.xor_eq_zero_iff.mp (step_eq_zero top difference)

theorem steps_injective (top : poly.msb = true) (count : ℕ) :
    Function.Injective (steps poly count) :=
  (step_injective top).iterate count

theorem feeds_injective (top : poly.msb = true) (bits : List Bool) :
    Function.Injective fun c => feeds poly c bits := by
  induction bits with
  | nil => exact fun _ _ same => same
  | cons bit bits ih =>
      intro left right same
      have fed : feed poly left bit = feed poly right bit := ih same
      exact (BitVec.xor_left_inj _).mp (step_injective top fed)

/-- Messages that differ in a short stretch only leave different registers. -/
theorem feeds_ne_of_burst (top : poly.msb = true) (c : BitVec w) (front rest : List Bool)
    {left right : List Bool} (length : left.length = right.length)
    (short : left.length ≤ w) (different : left ≠ right) :
    feeds poly c (front ++ left ++ rest) ≠ feeds poly c (front ++ right ++ rest) := by
  intro same
  simp only [feeds, List.foldl_append] at same
  have burst := feeds_injective top rest same
  have summed : steps poly left.length (feeds poly c front ^^^ value w left) =
      steps poly left.length (feeds poly c front ^^^ value w right) := by
    rw [← feeds_eq_steps poly short]
    rw [length] at short ⊢
    rw [← feeds_eq_steps poly short]
    exact burst
  have values : value w left = value w right :=
    (BitVec.xor_right_inj _).mp (steps_injective top _ summed)
  apply different
  apply List.ext_getElem length
  intro idx inLeft inRight
  have bits := congrArg (fun register => register.getLsbD idx) values
  simp only [getLsbD_value _ idx (by omega : idx < w)] at bits
  simpa [List.getD_eq_getElem?_getD, List.getElem?_eq_getElem inLeft,
    List.getElem?_eq_getElem inRight] using bits

end Foundation.ShiftRegister
