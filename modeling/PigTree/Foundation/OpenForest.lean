import PigTree.Foundation.ParentTree

/-!
# Union-find over the finished part of a tree

A traversal that finishes nodes in postorder keeps one pointer for each node.
Open nodes point at themselves and a finished node at a proper ancestor, past
which no open ancestor is skipped. Following the pointers from a node then ends
at its lowest open ancestor; shortening pointers to that ancestor, and pointing
a newly finished node at its parent, keep the forest in this form.
-/

namespace Foundation

namespace ParentTree

variable {tree : ParentTree} {done : List ℕ} {pointer : ℕ → ℕ}

/-- `low` is the lowest ancestor of `node` that is not finished. -/
structure IsLowestOpen (tree : ParentTree) (done : List ℕ) (low node : ℕ) : Prop where
  above : tree.IsAncestor low node
  isOpen : low ∉ done
  lowest : ∀ top, tree.IsAncestor top node → top ∉ done → tree.IsAncestor top low

/-- Open nodes point at themselves, finished ones at a proper ancestor past
which there is no open one. -/
structure PointsUp (tree : ParentTree) (done : List ℕ) (pointer : ℕ → ℕ) : Prop where
  open_fixed : ∀ node < tree.size, node ∉ done → pointer node = node
  done_above : ∀ node ∈ done, tree.IsAncestor (pointer node) node
  done_lt : ∀ node ∈ done, pointer node < node
  keeps_open : ∀ node ∈ done, ∀ top, tree.IsAncestor top node → top ∉ done →
    tree.IsAncestor top (pointer node)

namespace IsLowestOpen

/-- An open node is its own lowest open ancestor. -/
theorem self {node : ℕ} (openNode : node ∉ done) : tree.IsLowestOpen done node node where
  above := IsAncestor.refl node
  isOpen := openNode
  lowest := fun _ above _ => above

theorem eq_of_open {low node : ℕ} (low_is : tree.IsLowestOpen done low node)
    (openNode : node ∉ done) : low = node :=
  low_is.above.antisymm (low_is.lowest node (IsAncestor.refl node) openNode)

theorem lt_of_done {low node : ℕ} (low_is : tree.IsLowestOpen done low node)
    (nodeDone : node ∈ done) : low < node := by
  apply lt_of_le_of_ne low_is.above.le
  rintro rfl
  exact low_is.isOpen nodeDone

/-- The lowest open ancestor does not change along a pointer. -/
theorem follow {low node : ℕ} (low_is : tree.IsLowestOpen done low node)
    (up : tree.PointsUp done pointer) (nodeDone : node ∈ done) :
    tree.IsLowestOpen done low (pointer node) where
  above := up.keeps_open node nodeDone low low_is.above low_is.isOpen
  isOpen := low_is.isOpen
  lowest := fun top above topOpen =>
    low_is.lowest top (above.trans (up.done_above node nodeDone)) topOpen

/-- A node inherits the lowest open ancestor from where its pointer leads. -/
theorem of_follow {low node : ℕ} (up : tree.PointsUp done pointer) (nodeDone : node ∈ done)
    (low_is : tree.IsLowestOpen done low (pointer node)) : tree.IsLowestOpen done low node where
  above := low_is.above.trans (up.done_above node nodeDone)
  isOpen := low_is.isOpen
  lowest := fun top above topOpen =>
    low_is.lowest top (up.keeps_open node nodeDone top above topOpen) topOpen

end IsLowestOpen

namespace PointsUp

theorem initial (tree : ParentTree) {pointer : ℕ → ℕ}
    (fixed : ∀ node < tree.size, pointer node = node) : tree.PointsUp [] pointer where
  open_fixed := fun node inside _ => fixed node inside
  done_above := by simp
  done_lt := by simp
  keeps_open := by simp

/-- A node that does not point at itself is finished. -/
theorem mem_done (up : tree.PointsUp done pointer) {node : ℕ} (inside : node < tree.size)
    (moves : pointer node ≠ node) : node ∈ done := by
  by_contra openNode
  exact moves (up.open_fixed node inside openNode)

/-- A node that points at itself is open. -/
theorem notMem_done (up : tree.PointsUp done pointer) {node : ℕ} (stays : pointer node = node) :
    node ∉ done := by
  intro nodeDone
  have below := up.done_lt node nodeDone
  omega

/-- Pointing a node of a path at the end of the path. -/
theorem redirect (up : tree.PointsUp done pointer) {low node : ℕ} (nodeDone : node ∈ done)
    (low_is : tree.IsLowestOpen done low node) :
    tree.PointsUp done (Function.update pointer node low) where
  open_fixed := by
    intro other inside otherOpen
    have different : other ≠ node := fun same => otherOpen (same ▸ nodeDone)
    rw [Function.update_of_ne different]
    exact up.open_fixed other inside otherOpen
  done_above := by
    intro other otherDone
    by_cases same : other = node
    · subst same
      rw [Function.update_self]
      exact low_is.above
    · rw [Function.update_of_ne same]
      exact up.done_above other otherDone
  done_lt := by
    intro other otherDone
    by_cases same : other = node
    · subst same
      rw [Function.update_self]
      exact low_is.lt_of_done nodeDone
    · rw [Function.update_of_ne same]
      exact up.done_lt other otherDone
  keeps_open := by
    intro other otherDone top above topOpen
    by_cases same : other = node
    · subst same
      rw [Function.update_self]
      exact low_is.lowest top above topOpen
    · rw [Function.update_of_ne same]
      exact up.keeps_open other otherDone top above topOpen

/-- Finishing a node other than the root points it at its parent. -/
theorem close (up : tree.PointsUp done pointer) {node : ℕ} (positive : 0 < node) :
    tree.PointsUp (done ++ [node]) (Function.update pointer node (tree.parent node)) where
  open_fixed := by
    intro other inside otherOpen
    simp only [List.mem_append, List.mem_singleton, not_or] at otherOpen
    rw [Function.update_of_ne otherOpen.2]
    exact up.open_fixed other inside otherOpen.1
  done_above := by
    intro other otherDone
    by_cases same : other = node
    · subst same
      rw [Function.update_self]
      exact tree.isAncestor_parent other
    · rw [Function.update_of_ne same]
      exact up.done_above other (by simpa [same] using otherDone)
  done_lt := by
    intro other otherDone
    by_cases same : other = node
    · subst same
      rw [Function.update_self]
      exact tree.parent_lt other positive
    · rw [Function.update_of_ne same]
      exact up.done_lt other (by simpa [same] using otherDone)
  keeps_open := by
    intro other otherDone top above topOpen
    simp only [List.mem_append, List.mem_singleton, not_or] at topOpen
    by_cases same : other = node
    · subst same
      rw [Function.update_self]
      rcases above.eq_or_parent with equal | onParent
      · exact absurd equal topOpen.2
      · exact onParent
    · rw [Function.update_of_ne same]
      exact up.keeps_open other (by simpa [same] using otherDone) top above topOpen.1

end PointsUp

end ParentTree

end Foundation
