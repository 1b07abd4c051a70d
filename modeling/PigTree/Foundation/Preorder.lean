import Mathlib

/-!
# Preorder listings

The items of a forest in preorder, each with its depth. An item lists what it shows
right after itself, so what one item shows can be exchanged in the middle of a listing.
-/

namespace Foundation

variable {α : Type}

/-- The listing of a forest at a depth, given what each item shows. -/
inductive Preorder (shown : α → List α) : ℕ → List α → List (α × ℕ) → Prop
  | nil (depth : ℕ) : Preorder shown depth [] []
  | cons {depth : ℕ} {item : α} {items : List α} {below after : List (α × ℕ)}
      (inside : Preorder shown (depth + 1) (shown item) below)
      (next : Preorder shown depth items after) :
      Preorder shown depth (item :: items) ((item, depth) :: (below ++ after))

namespace Preorder

variable {shown shown' : α → List α} {depth : ℕ} {items : List α} {listing : List (α × ℕ)}

/-- A listing starts at its depth. -/
theorem head_depth (preorder : Preorder shown depth items listing) {entry : α × ℕ}
    (head : listing.head? = some entry) : entry.2 = depth := by
  cases preorder with
  | nil => simp at head
  | cons inside next =>
      simp only [List.head?_cons, Option.some.injEq] at head
      rw [← head]

theorem depth_le (preorder : Preorder shown depth items listing) {entry : α × ℕ}
    (mem : entry ∈ listing) : depth ≤ entry.2 := by
  induction preorder with
  | nil => simp at mem
  | cons inside next belowIh afterIh =>
      rcases List.mem_cons.mp mem with rfl | mem
      · exact le_rfl
      · rcases List.mem_append.mp mem with mem | mem
        · have := belowIh mem
          omega
        · exact afterIh mem

/-- What is listed is of the forest or shown by an item that is listed. -/
theorem mem_cases (preorder : Preorder shown depth items listing) {entry : α × ℕ}
    (mem : entry ∈ listing) :
    entry.1 ∈ items ∨ ∃ holder ∈ listing, entry.1 ∈ shown holder.1 := by
  induction preorder with
  | nil => simp at mem
  | @cons depth item items below after inside next belowIh afterIh =>
      rcases List.mem_cons.mp mem with rfl | mem
      · exact .inl List.mem_cons_self
      · rcases List.mem_append.mp mem with mem | mem
        · rcases belowIh mem with shownHere | ⟨holder, held, shows⟩
          · exact .inr ⟨(item, depth), List.mem_cons_self, shownHere⟩
          · exact .inr ⟨holder, List.mem_cons_of_mem _ (List.mem_append_left _ held), shows⟩
        · rcases afterIh mem with among | ⟨holder, held, shows⟩
          · exact .inl (List.mem_cons_of_mem _ among)
          · exact .inr ⟨holder, List.mem_cons_of_mem _ (List.mem_append_right _ held), shows⟩

/-- A listing depends only on what the listed items show. -/
theorem congr (shown' : α → List α) (preorder : Preorder shown depth items listing)
    (same : ∀ entry ∈ listing, shown' entry.1 = shown entry.1) :
    Preorder shown' depth items listing := by
  induction preorder with
  | nil => exact .nil _
  | @cons depth item items below after inside next belowIh afterIh =>
      refine .cons ?_ (afterIh fun entry mem => ?_)
      · rw [same (item, depth) List.mem_cons_self]
        exact belowIh fun entry mem =>
          same entry (List.mem_cons_of_mem _ (List.mem_append_left _ mem))
      · exact same entry (List.mem_cons_of_mem _ (List.mem_append_right _ mem))

/-- Items that show nothing are listed by themselves. -/
theorem of_closed (closed : ∀ item ∈ items, shown item = []) :
    Preorder shown depth items (items.map fun item => (item, depth)) := by
  induction items with
  | nil => exact .nil _
  | cons item items ih =>
      have inside : Preorder shown (depth + 1) (shown item) [] := by
        rw [closed item List.mem_cons_self]
        exact .nil _
      exact .cons inside (ih fun other mem => closed other (List.mem_cons_of_mem _ mem))

/-- Around a listed item: what it shows is listed after it down to the next entry that is
not deeper, and can be exchanged for the listing of something else. -/
theorem exchange (preorder : Preorder shown depth items listing) {entry : α × ℕ}
    (mem : entry ∈ listing) :
    ∃ before below after, listing = before ++ entry :: (below ++ after)
      ∧ Preorder shown (entry.2 + 1) (shown entry.1) below
      ∧ (∀ next, after.head? = some next → next.2 ≤ entry.2)
      ∧ ∀ shown' below', (∀ other ∈ before ++ after, shown' other.1 = shown other.1) →
          Preorder shown' (entry.2 + 1) (shown' entry.1) below' →
          Preorder shown' depth items (before ++ entry :: (below' ++ after)) := by
  induction preorder with
  | nil => simp at mem
  | @cons depth item items below after inside next belowIh afterIh =>
      rcases List.mem_cons.mp mem with rfl | mem
      · refine ⟨[], below, after, rfl, inside, ?_, ?_⟩
        · intro entry head
          exact (next.head_depth head).le
        · intro shown' below' same inside'
          exact .cons inside' (next.congr shown' fun entry mem => same entry mem)
      · rcases List.mem_append.mp mem with mem | mem
        · rcases belowIh mem with ⟨before, inner, rest, rfl, preorder, stops, exchange⟩
          refine ⟨(item, depth) :: before, inner, rest ++ after, ?_, preorder, ?_, ?_⟩
          · simp
          · intro following head
            rcases rest with _ | ⟨first, rest⟩
            · have deeper := inside.depth_le mem
              have := next.head_depth head
              omega
            · exact stops following head
          · intro shown' below' same preorder'
            have inside' := exchange shown' below' (fun other mem => same other (by
              rcases List.mem_append.mp mem with mem | mem <;> simp [mem])) preorder'
            rw [← same (item, depth) (by simp)] at inside'
            have next' := next.congr shown' fun other mem => same other (by simp [mem])
            simpa using Preorder.cons inside' next'
        · rcases afterIh mem with ⟨before, inner, rest, rfl, preorder, stops, exchange⟩
          refine ⟨(item, depth) :: (below ++ before), inner, rest, ?_, preorder, stops, ?_⟩
          · simp
          · intro shown' below' same preorder'
            have next' := exchange shown' below' (fun other mem => same other (by
              rcases List.mem_append.mp mem with mem | mem <;> simp [mem])) preorder'
            have inside' := inside.congr shown' fun other mem =>
              same other (by simp [mem])
            rw [← same (item, depth) (by simp)] at inside'
            simpa using Preorder.cons inside' next'

end Preorder

end Foundation
