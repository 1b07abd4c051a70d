import Mathlib.Data.List.Induction
import Mathlib.Data.Set.Insert

/-!
# Consecutive slices of a flat list

Lists that are laid out one after the other in one flat list. A slice is
recovered from its start and length, and the slices tile the flat list.
-/

namespace Foundation

variable {α : Type*} {slices : List (List α)} {slice : List α} {idx : ℕ}

/-- Where a slice starts in the flat list. -/
def sliceStart (slices : List (List α)) (idx : ℕ) : ℕ := (slices.take idx).flatten.length

@[simp]
theorem sliceStart_length (slices : List (List α)) :
    sliceStart slices slices.length = slices.flatten.length := by
  simp [sliceStart]

/-- Later slices do not move the earlier ones. -/
theorem sliceStart_append (more : List (List α)) (inside : idx ≤ slices.length) :
    sliceStart (slices ++ more) idx = sliceStart slices idx := by
  rw [sliceStart, sliceStart, List.take_append_of_le_length inside]

theorem flatten_split (found : slices[idx]? = some slice) :
    slices.flatten = (slices.take idx).flatten ++ (slice ++ (slices.drop (idx + 1)).flatten) := by
  rcases List.getElem?_eq_some_iff.mp found with ⟨inside, rfl⟩
  conv_lhs => rw [← List.take_append_drop idx slices, List.drop_eq_getElem_cons inside]
  rw [List.flatten_append, List.flatten_cons]

theorem sliceStart_add_length_le (found : slices[idx]? = some slice) :
    sliceStart slices idx + slice.length ≤ slices.flatten.length := by
  rw [flatten_split found, List.length_append, List.length_append, sliceStart]
  omega

/-- Start and length of a slice give it back. -/
theorem take_drop_sliceStart (found : slices[idx]? = some slice) :
    (slices.flatten.drop (sliceStart slices idx)).take slice.length = slice := by
  rw [flatten_split found, sliceStart, List.drop_left, List.take_left]

/-- A slice ends before any later one starts. -/
theorem sliceStart_add_length_le_of_lt (found : slices[idx]? = some slice) {later : ℕ}
    (before : idx < later) : sliceStart slices idx + slice.length ≤ sliceStart slices later := by
  have inPrefix : (slices.take later)[idx]? = some slice := by
    rw [List.getElem?_take_of_lt before]
    exact found
  have fits := sliceStart_add_length_le inPrefix
  have start : sliceStart (slices.take later) idx = sliceStart slices idx := by
    rw [sliceStart, sliceStart, List.take_take, Nat.min_eq_left before.le]
  rw [start] at fits
  exact fits

/-- The slices tile the flat list: every position lies in exactly one of them. -/
theorem existsUnique_slice {position : ℕ} (inside : position < slices.flatten.length) :
    ∃! idx, ∃ slice, slices[idx]? = some slice ∧
      sliceStart slices idx ≤ position ∧ position < sliceStart slices idx + slice.length := by
  have existing : ∃ idx slice, slices[idx]? = some slice ∧
      sliceStart slices idx ≤ position ∧ position < sliceStart slices idx + slice.length := by
    induction slices using List.reverseRecOn with
    | nil => simp at inside
    | append_singleton slices last ih =>
        rw [List.flatten_append, List.length_append] at inside
        by_cases early : position < slices.flatten.length
        · rcases ih early with ⟨idx, slice, found, lower, upper⟩
          have bound := (List.getElem?_eq_some_iff.mp found).1
          refine ⟨idx, slice, ?_, ?_⟩
          · rw [List.getElem?_append_left bound]
            exact found
          · rw [sliceStart_append _ bound.le]
            exact ⟨lower, upper⟩
        · refine ⟨slices.length, last, by simp, ?_⟩
          rw [sliceStart_append _ le_rfl, sliceStart_length]
          simp only [List.flatten_cons, List.flatten_nil, List.append_nil] at inside
          omega
  rcases existing with ⟨idx, slice, found, lower, upper⟩
  refine ⟨idx, ⟨slice, found, lower, upper⟩, ?_⟩
  rintro other ⟨otherSlice, otherFound, otherLower, otherUpper⟩
  rcases Nat.lt_trichotomy other idx with before | same | after
  · have apart := sliceStart_add_length_le_of_lt otherFound before
    omega
  · exact same
  · have apart := sliceStart_add_length_le_of_lt found after
    omega

/-- Slices that permute given lists make up a permutation of all of them. -/
theorem flatten_perm_flatMap {source : ℕ → List α}
    (perm : ∀ (idx : ℕ) (slice : List α), slices[idx]? = some slice → slice.Perm (source idx)) :
    slices.flatten.Perm ((List.range slices.length).flatMap source) := by
  induction slices using List.reverseRecOn with
  | nil => simp
  | append_singleton slices last ih =>
      have before : slices.flatten.Perm ((List.range slices.length).flatMap source) := by
        apply ih
        intro idx slice found
        apply perm idx slice
        rw [List.getElem?_append_left (List.getElem?_eq_some_iff.mp found).1]
        exact found
      have final : last.Perm (source slices.length) := perm _ last (by simp)
      simpa [List.range_succ] using before.append final

end Foundation
