import Mathlib

/-!
# Numbers of a fixed width

Decimal digits padded to a width, and records of such numbers with separators
between them. Among texts of one layout the lexicographic order of the
characters is the lexicographic order of the numbers.
-/

namespace Foundation.Decimal

/-- The lowest `width` decimal digits of a number, the highest first. -/
def digits : ℕ → ℕ → List Char
  | 0, _ => []
  | width + 1, n => Nat.digitChar (n / 10 ^ width) :: digits width (n % 10 ^ width)

/-- A number with zeros in front of it up to a width. -/
def zeroPadded (width n : ℕ) : List Char := List.leftpad width '0' (Nat.toDigits 10 n)

theorem digits_zero (width : ℕ) : digits width 0 = List.replicate width '0' := by
  induction width with
  | zero => rfl
  | succ width ih => simp [digits, ih, List.replicate_succ, Nat.digitChar]

theorem digits_succ {width n : ℕ} (small : n < 10 ^ (width + 1)) :
    digits (width + 1) n = digits width (n / 10) ++ [Nat.digitChar (n % 10)] := by
  induction width generalizing n with
  | zero =>
      have digit : n < 10 := by simpa using small
      simp [digits, Nat.mod_eq_of_lt digit]
  | succ width ih =>
      have low : n % 10 ^ (width + 1) < 10 ^ (width + 1) := Nat.mod_lt _ (by positivity)
      have shifted : n / 10 / 10 ^ width = n / 10 ^ (width + 1) := by
        rw [Nat.div_div_eq_div_mul, pow_succ, mul_comm]
      have above : n % 10 ^ (width + 1) / 10 = n / 10 % 10 ^ width := by
        rw [pow_succ, mul_comm, Nat.mod_mul_right_div_self]
      have last : n % 10 ^ (width + 1) % 10 = n % 10 :=
        Nat.mod_mod_of_dvd _ (Dvd.intro_left _ (pow_succ 10 width).symm)
      rw [digits, ih low, above, last, digits, shifted, List.cons_append]

/-- A number that fits its width is written with exactly that many digits. -/
theorem zeroPadded_eq_digits {width n : ℕ} (wide : 0 < width) (small : n < 10 ^ width) :
    zeroPadded width n = digits width n := by
  induction width generalizing n with
  | zero => omega
  | succ width ih =>
      rw [digits_succ small]
      rcases Nat.lt_or_ge n 10 with digit | large
      · rw [zeroPadded, Nat.toDigits_of_lt_base digit, Nat.mod_eq_of_lt digit,
          Nat.div_eq_of_lt digit, digits_zero]
        simp [List.leftpad]
      · have fits : n / 10 < 10 ^ width := by
          apply Nat.div_lt_of_lt_mul
          rwa [← pow_succ']
        have positive : 0 < width := by
          rcases Nat.eq_zero_or_pos width with none | some
          · subst none
            simp at small
            omega
          · exact some
        rw [← ih positive fits, zeroPadded, Nat.toDigits_of_base_le (by decide) large]
        simp [zeroPadded, List.leftpad]

theorem digitChar_lt {first second : ℕ} (less : first < second) (digit : second < 10) :
    Nat.digitChar first < Nat.digitChar second := by
  have each : ∀ second < 10, ∀ first < second, Nat.digitChar first < Nat.digitChar second := by
    decide
  exact each second digit first less

/-- Of two numbers of one width the smaller one is written first, whatever follows. -/
theorem digits_append_lt {width first second : ℕ} (less : first < second)
    (small : second < 10 ^ width) (rest rest' : List Char) :
    digits width first ++ rest < digits width second ++ rest' := by
  induction width generalizing first second with
  | zero =>
      simp at small
      omega
  | succ width ih =>
      have positive : 0 < 10 ^ width := by positivity
      have heads : first / 10 ^ width ≤ second / 10 ^ width := Nat.div_le_div_right less.le
      rw [digits, digits, List.cons_append, List.cons_append, List.cons_lt_cons_iff]
      rcases heads.lt_or_eq with headLess | headSame
      · left
        apply digitChar_lt headLess
        apply Nat.div_lt_of_lt_mul
        rwa [← pow_succ]
      · right
        have split := Nat.div_add_mod first (10 ^ width)
        have split' := Nat.div_add_mod second (10 ^ width)
        rw [headSame] at split
        exact ⟨by rw [headSame], ih (by omega) (Nat.mod_lt _ positive)⟩

/-! ### Records -/

/-- Numbers one after another, each of its width and followed by its separator. -/
def fields : List (ℕ × Char) → List ℕ → List Char
  | (width, separator) :: layout, value :: values =>
      digits width value ++ separator :: fields layout values
  | _, _ => []

/-- Every number fits the width of its field. -/
def Fits (layout : List (ℕ × Char)) (values : List ℕ) : Prop :=
  List.Forall₂ (fun slot value => value < 10 ^ slot.1) layout values

/-- Records of one layout are ordered as their numbers are. -/
theorem fields_le {layout : List (ℕ × Char)} {values values' : List ℕ}
    (fits : Fits layout values) (fits' : Fits layout values') (ordered : values ≤ values') :
    fields layout values ≤ fields layout values' := by
  induction fits generalizing values' with
  | nil => exact le_of_eq (by cases fits'; rfl)
  | @cons slot value layout values small _ ih =>
      cases fits' with
      | @cons _ value' _ values' small' smalls' =>
          rcases slot with ⟨width, separator⟩
          simp only [fields]
          rcases List.cons_le_cons_iff.mp (not_lt.mpr ordered) with less | ⟨same, tails⟩
          · exact (digits_append_lt less small' _ _).le
          · subst same
            rcases (ih smalls' (not_lt.mp tails)).lt_or_eq with less | same
            · apply le_of_lt
              apply List.append_left_lt
              exact List.cons_lt_cons_iff.mpr (.inr ⟨rfl, less⟩)
            · exact le_of_eq (by rw [same])

/-! ### Reading a number -/

/-- One more digit of a number below a bound. -/
def pushDigit (bound value : ℕ) (c : Char) : Option ℕ :=
  let next := value * 10 + (c.toNat - '0'.toNat)
  if c.isDigit && next < bound then some next else none

/-- A number below a bound, which a sign may precede. -/
def parse? (bound : ℕ) (text : List Char) : Option ℕ :=
  let digits := if text.head? = some '+' then text.tail else text
  if digits.isEmpty then none else digits.foldlM (pushDigit bound) 0

theorem pushDigit_digitChar {bound value digit : ℕ} (small : digit < 10)
    (fits : value * 10 + digit < bound) :
    pushDigit bound value (Nat.digitChar digit) = some (value * 10 + digit) := by
  have each : ∀ digit < 10, (Nat.digitChar digit).isDigit = true ∧
      (Nat.digitChar digit).toNat - '0'.toNat = digit := by decide
  rcases each digit small with ⟨isDigit, same⟩
  simp only [pushDigit, isDigit, same, Bool.true_and, decide_eq_true_eq, if_pos fits]

theorem foldlM_toDigits {bound n : ℕ} (fits : n < bound) :
    (Nat.toDigits 10 n).foldlM (pushDigit bound) 0 = some n := by
  induction n using Nat.strongRecOn with
  | ind n ih =>
      rcases Nat.lt_or_ge n 10 with digit | large
      · rw [Nat.toDigits_of_lt_base digit, List.foldlM_cons,
          pushDigit_digitChar digit (by omega)]
        simp
      · rw [Nat.toDigits_of_base_le (by decide) large, List.foldlM_append,
          ih (n / 10) (by omega) (by omega)]
        have whole : n / 10 * 10 + n % 10 = n := by omega
        simp only [List.foldlM_cons, List.foldlM_nil, Option.bind_eq_bind, Option.bind_some]
        rw [pushDigit_digitChar (Nat.mod_lt _ (by decide)) (by omega), whole]
        rfl

/-- A number is read back from its digits. -/
theorem parse?_toDigits {bound n : ℕ} (fits : n < bound) :
    parse? bound (Nat.toDigits 10 n) = some n := by
  have read := foldlM_toDigits fits
  have unsigned : (Nat.toDigits 10 n).head? ≠ some '+' := by
    intro sign
    have digit := Nat.isDigit_of_mem_toDigits (by decide) (by decide)
      (List.mem_of_mem_head? sign)
    exact absurd digit (by decide)
  have some : (Nat.toDigits 10 n).isEmpty = false := by simp [Nat.toDigits_ne_nil]
  simp only [parse?, if_neg unsigned, some, read]
  rfl

end Foundation.Decimal
