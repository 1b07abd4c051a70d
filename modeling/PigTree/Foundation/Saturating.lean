import Mathlib

/-!
# Saturating sums

A running sum that saturates at the largest word equals the exact sum cut off
at that word, so the order of the summands and the places where the sum is
split do not matter.
-/

namespace Foundation

/-- Addition of 64-bit words that stops at the largest one. -/
def saturatingAdd (left right : UInt64) : UInt64 :=
  UInt64.ofNat (min (left.toNat + right.toNat) (UInt64.size - 1))

/-- A number cut off at the largest 64-bit word. -/
def clip (value : ℕ) : ℕ := min value (UInt64.size - 1)

theorem clip_of_lt {value : ℕ} (fits : value < UInt64.size) : clip value = value := by
  unfold clip
  omega

theorem clip_lt (value : ℕ) : clip value < UInt64.size := by
  unfold clip UInt64.size
  omega

@[simp]
theorem clip_add_clip (left right : ℕ) : clip (clip left + clip right) = clip (left + right) := by
  unfold clip UInt64.size
  omega

@[simp]
theorem clip_toNat (word : UInt64) : clip word.toNat = word.toNat :=
  clip_of_lt word.toNat_lt

@[simp]
theorem toNat_saturatingAdd (left right : UInt64) :
    (saturatingAdd left right).toNat = clip (left.toNat + right.toNat) := by
  unfold saturatingAdd
  exact UInt64.toNat_ofNat_of_lt' (clip_lt _)

/-- A saturating fold of clipped values is the clipped sum. -/
theorem toNat_foldl_saturatingAdd {α : Type*} (items : List α) (word : α → UInt64)
    (value : α → ℕ) (clipped : ∀ item ∈ items, (word item).toNat = clip (value item))
    {start : UInt64} {base : ℕ} (startEq : start.toNat = clip base) :
    (items.foldl (fun sum item => saturatingAdd sum (word item)) start).toNat =
      clip (base + (items.map value).sum) := by
  induction items generalizing start base with
  | nil => simpa using startEq
  | cons item items ih =>
      have stepped : (saturatingAdd start (word item)).toNat = clip (base + value item) := by
        rw [toNat_saturatingAdd, startEq, clipped item List.mem_cons_self, clip_add_clip]
      have tail := ih (fun other mem => clipped other (List.mem_cons_of_mem _ mem)) stepped
      simpa [Nat.add_assoc] using tail

end Foundation
