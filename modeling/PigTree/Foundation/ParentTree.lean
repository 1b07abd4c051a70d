import Mathlib

/-!
# Rooted trees given by a parent function

The nodes are the numbers below `size`, the root is `0`, and every other node
has a smaller parent. Ancestry is iteration of the parent function, so two
ancestors of one node are always comparable. The postorder lists a subtree as a
contiguous block that ends with its root; the facts about a traversal that has
finished a prefix of the postorder all come from this.
-/

namespace Foundation

/-- A rooted tree on the numbers below `size`, given by the parent of each node. -/
structure ParentTree where
  size : ℕ
  parent : ℕ → ℕ
  parent_zero : parent 0 = 0
  parent_lt : ∀ node, 0 < node → parent node < node

namespace ParentTree

variable {tree : ParentTree}

/-! ### Ancestors -/

/-- `top` is `node` or lies above it. -/
def IsAncestor (tree : ParentTree) (top node : ℕ) : Prop :=
  ∃ steps, tree.parent^[steps] node = top

theorem iterate_parent_le_sub (tree : ParentTree) (steps node : ℕ) :
    tree.parent^[steps] node ≤ node - steps := by
  induction steps generalizing node with
  | zero => simp
  | succ steps ih =>
      rw [Function.iterate_succ_apply]
      have above := ih (tree.parent node)
      rcases Nat.eq_zero_or_pos node with rfl | positive
      · rw [tree.parent_zero] at above ⊢
        omega
      · have smaller := tree.parent_lt node positive
        omega

theorem isAncestor_iff_bounded {top node : ℕ} :
    tree.IsAncestor top node ↔ ∃ steps, steps ≤ node ∧ tree.parent^[steps] node = top := by
  constructor
  · rintro ⟨steps, reached⟩
    rcases Nat.le_total steps node with short | long
    · exact ⟨steps, short, reached⟩
    · refine ⟨node, le_rfl, ?_⟩
      have atRoot := tree.iterate_parent_le_sub node node
      have pastRoot := tree.iterate_parent_le_sub steps node
      omega
  · rintro ⟨steps, _, reached⟩
    exact ⟨steps, reached⟩

instance (tree : ParentTree) (top node : ℕ) : Decidable (tree.IsAncestor top node) :=
  decidable_of_iff _ isAncestor_iff_bounded.symm

@[simp, refl]
theorem IsAncestor.refl (node : ℕ) : tree.IsAncestor node node := ⟨0, rfl⟩

theorem IsAncestor.trans {top middle node : ℕ} (upper : tree.IsAncestor top middle)
    (lower : tree.IsAncestor middle node) : tree.IsAncestor top node := by
  rcases upper with ⟨steps, rfl⟩
  rcases lower with ⟨steps', rfl⟩
  exact ⟨steps + steps', by rw [Function.iterate_add_apply]⟩

theorem isAncestor_parent (tree : ParentTree) (node : ℕ) :
    tree.IsAncestor (tree.parent node) node := ⟨1, rfl⟩

theorem IsAncestor.eq_or_parent {top node : ℕ} (above : tree.IsAncestor top node) :
    top = node ∨ tree.IsAncestor top (tree.parent node) := by
  rcases above with ⟨steps, reached⟩
  cases steps with
  | zero => exact Or.inl reached.symm
  | succ steps => exact Or.inr ⟨steps, by rwa [Function.iterate_succ_apply] at reached⟩

theorem IsAncestor.le {top node : ℕ} (above : tree.IsAncestor top node) : top ≤ node := by
  rcases above with ⟨steps, rfl⟩
  exact (tree.iterate_parent_le_sub steps node).trans (Nat.sub_le _ _)

theorem IsAncestor.antisymm {left right : ℕ} (down : tree.IsAncestor left right)
    (up : tree.IsAncestor right left) : left = right :=
  le_antisymm down.le up.le

/-- Two ancestors of one node are comparable. -/
theorem IsAncestor.total {left right node : ℕ} (first : tree.IsAncestor left node)
    (second : tree.IsAncestor right node) :
    tree.IsAncestor left right ∨ tree.IsAncestor right left := by
  rcases first with ⟨steps, rfl⟩
  rcases second with ⟨steps', rfl⟩
  rcases Nat.le_total steps steps' with shorter | longer
  · right
    refine ⟨steps' - steps, ?_⟩
    rw [← Function.iterate_add_apply, Nat.sub_add_cancel shorter]
  · left
    refine ⟨steps - steps', ?_⟩
    rw [← Function.iterate_add_apply, Nat.sub_add_cancel longer]

theorem isAncestor_zero (tree : ParentTree) (node : ℕ) : tree.IsAncestor 0 node :=
  ⟨node, by have := tree.iterate_parent_le_sub node node; omega⟩

/-! ### Children and subtrees -/

/-- The children of a node, in increasing order. -/
def children (tree : ParentTree) (node : ℕ) : List ℕ :=
  (List.range tree.size).filter (fun child => 0 < child ∧ tree.parent child = node)

@[simp]
theorem mem_children {node child : ℕ} :
    child ∈ tree.children node ↔ child < tree.size ∧ 0 < child ∧ tree.parent child = node := by
  simp [children]

theorem lt_of_mem_children {node child : ℕ} (mem : child ∈ tree.children node) :
    node < child := by
  rcases mem_children.mp mem with ⟨_, positive, rfl⟩
  exact tree.parent_lt child positive

theorem nodup_children (tree : ParentTree) (node : ℕ) : (tree.children node).Nodup :=
  List.nodup_range.filter _

theorem nodup_flatMap_children (tree : ParentTree) {nodes : List ℕ} (nodup : nodes.Nodup) :
    (nodes.flatMap tree.children).Nodup := by
  rw [List.nodup_flatMap]
  refine ⟨fun node _ => tree.nodup_children node, nodup.imp ?_⟩
  intro left right different child leftMem rightMem
  exact different ((mem_children.mp leftMem).2.2.symm.trans (mem_children.mp rightMem).2.2)

/-- Every node but the root is a child of exactly one node. -/
theorem flatMap_children_perm (tree : ParentTree) :
    ((List.range tree.size).flatMap tree.children).Perm
      ((List.range tree.size).filter (fun node => 0 < node)) := by
  apply (List.perm_ext_iff_of_nodup (tree.nodup_flatMap_children List.nodup_range)
    (List.nodup_range.filter _)).mpr
  intro node
  simp only [List.mem_flatMap, List.mem_range, mem_children, List.mem_filter, decide_eq_true_eq]
  constructor
  · rintro ⟨_, _, inside, positive, _⟩
    exact ⟨inside, positive⟩
  · rintro ⟨inside, positive⟩
    exact ⟨tree.parent node, (tree.parent_lt node positive).trans inside, inside, positive, rfl⟩

/-- Induction from the leaves towards the root. -/
theorem childInduction {motive : ℕ → Prop}
    (step : ∀ node, (∀ child ∈ tree.children node, motive child) → motive node) (node : ℕ) :
    motive node := by
  induction measured : tree.size - node using Nat.strong_induction_on generalizing node with
  | _ distance ih =>
      apply step
      intro child childMem
      have below := lt_of_mem_children childMem
      have inside := (mem_children.mp childMem).1
      exact ih (tree.size - child) (by omega) child rfl

/-- The nodes at or below `top`. -/
def subtree (tree : ParentTree) (top : ℕ) : Finset ℕ :=
  (Finset.range tree.size).filter (fun node => tree.IsAncestor top node)

@[simp]
theorem mem_subtree {top node : ℕ} :
    node ∈ tree.subtree top ↔ node < tree.size ∧ tree.IsAncestor top node := by
  simp [subtree]

/-- A strict descendant lies at or below exactly one child. -/
theorem exists_child_of_isAncestor {top node : ℕ} (inside : node < tree.size)
    (above : tree.IsAncestor top node) (different : top ≠ node) :
    ∃ child ∈ tree.children top, tree.IsAncestor child node := by
  induction node using Nat.strong_induction_on with
  | _ node ih =>
      have positive : 0 < node := by
        have := above.le
        omega
      rcases above.eq_or_parent with same | onParent
      · exact absurd same different
      · by_cases direct : top = tree.parent node
        · exact ⟨node, by simp [inside, positive, direct], IsAncestor.refl node⟩
        · have smaller := tree.parent_lt node positive
          rcases ih (tree.parent node) smaller (by omega) onParent direct with
            ⟨child, childMem, childAbove⟩
          exact ⟨child, childMem, childAbove.trans (tree.isAncestor_parent node)⟩

theorem eq_of_isAncestor_of_mem_children {node left right descendant : ℕ}
    (leftMem : left ∈ tree.children node) (rightMem : right ∈ tree.children node)
    (leftAbove : tree.IsAncestor left descendant) (rightAbove : tree.IsAncestor right descendant) :
    left = right := by
  have ordered : ∀ first second : ℕ, first ∈ tree.children node → second ∈ tree.children node →
      tree.IsAncestor first second → first = second := by
    intro first second firstMem secondMem above
    rcases above.eq_or_parent with same | onParent
    · exact same
    · rw [(mem_children.mp secondMem).2.2] at onParent
      have := onParent.le
      have := lt_of_mem_children firstMem
      omega
  rcases leftAbove.total rightAbove with above | above
  · exact ordered left right leftMem rightMem above
  · exact (ordered right left rightMem leftMem above).symm

/-! ### Postorder -/

/-- The subtree of a node listed with every child before its parent. -/
def postorder (tree : ParentTree) (node : ℕ) : List ℕ :=
  (tree.children node).attach.flatMap (fun child => tree.postorder child.1) ++ [node]
termination_by tree.size - node
decreasing_by
  have below := lt_of_mem_children child.2
  have inside := (mem_children.mp child.2).1
  omega

theorem postorder_eq (tree : ParentTree) (node : ℕ) :
    tree.postorder node = (tree.children node).flatMap tree.postorder ++ [node] := by
  rw [postorder]
  simp [List.flatMap_def]

theorem mem_postorder {top node : ℕ} (inside : top < tree.size) :
    node ∈ tree.postorder top ↔ node < tree.size ∧ tree.IsAncestor top node := by
  induction top using tree.childInduction generalizing node with
  | step top ih =>
      rw [postorder_eq]
      simp only [List.mem_append, List.mem_flatMap, List.mem_singleton]
      constructor
      · rintro (⟨child, childMem, nodeMem⟩ | rfl)
        · have childMem' := mem_children.mp childMem
          rcases (ih child childMem childMem'.1).mp nodeMem with ⟨nodeInside, above⟩
          refine ⟨nodeInside, IsAncestor.trans ?_ above⟩
          rw [← childMem'.2.2]
          exact tree.isAncestor_parent child
        · exact ⟨inside, IsAncestor.refl _⟩
      · rintro ⟨nodeInside, above⟩
        by_cases same : node = top
        · exact Or.inr same
        · rcases exists_child_of_isAncestor nodeInside above (Ne.symm same) with
            ⟨child, childMem, childAbove⟩
          exact Or.inl ⟨child, childMem,
            (ih child childMem (mem_children.mp childMem).1).mpr ⟨nodeInside, childAbove⟩⟩

theorem nodup_postorder {top : ℕ} (inside : top < tree.size) : (tree.postorder top).Nodup := by
  induction top using tree.childInduction with
  | step top ih =>
      rw [postorder_eq, List.nodup_append]
      refine ⟨?_, List.nodup_singleton top, ?_⟩
      · rw [List.nodup_flatMap]
        refine ⟨fun child childMem => ih child childMem (mem_children.mp childMem).1, ?_⟩
        apply (tree.nodup_children top).pairwise_of_forall_ne
        intro left leftMem right rightMem different node nodeLeft nodeRight
        have leftAbove := ((mem_postorder (mem_children.mp leftMem).1).mp nodeLeft).2
        have rightAbove := ((mem_postorder (mem_children.mp rightMem).1).mp nodeRight).2
        exact different
          (eq_of_isAncestor_of_mem_children leftMem rightMem leftAbove rightAbove)
      · intro node nodeMem last lastMem same
        rw [List.mem_singleton] at lastMem
        subst lastMem
        subst same
        rcases List.mem_flatMap.mp nodeMem with ⟨child, childMem, inChild⟩
        have above := ((mem_postorder (mem_children.mp childMem).1).mp inChild).2
        have := above.le
        have := lt_of_mem_children childMem
        omega

theorem toFinset_postorder {top : ℕ} (inside : top < tree.size) :
    (tree.postorder top).toFinset = tree.subtree top := by
  ext node
  simp [mem_postorder inside]

/-- The postorder of the whole tree lists every node. -/
theorem length_postorder (positive : 0 < tree.size) :
    (tree.postorder 0).length = tree.size := by
  rw [← List.toFinset_card_of_nodup (nodup_postorder positive), toFinset_postorder positive]
  have all : tree.subtree 0 = Finset.range tree.size := by
    ext node
    simp [tree.isAncestor_zero node]
  rw [all, Finset.card_range]

theorem sum_postorder {M : Type*} [AddCommMonoid M] {top : ℕ} (inside : top < tree.size)
    (value : ℕ → M) : ((tree.postorder top).map value).sum = ∑ node ∈ tree.subtree top, value node := by
  rw [← toFinset_postorder inside, List.sum_toFinset value (nodup_postorder inside)]

/-- A sum over a subtree is the value at its root plus the sums over the children's subtrees. -/
theorem sum_subtree {M : Type*} [AddCommMonoid M] {top : ℕ} (inside : top < tree.size)
    (value : ℕ → M) :
    ∑ node ∈ tree.subtree top, value node =
      ((tree.children top).map (fun child => ∑ node ∈ tree.subtree child, value node)).sum +
        value top := by
  rw [← sum_postorder inside, postorder_eq]
  rw [List.map_append, List.sum_append, List.map_flatMap, List.flatMap_def, List.sum_flatten,
    List.map_map]
  congr 1
  · congr 1
    apply List.map_congr_left
    intro child childMem
    exact sum_postorder (mem_children.mp childMem).1 value
  · simp

/-- The postorder of a subtree is a contiguous block of the postorder of the tree. -/
theorem postorder_isInfix {node : ℕ} (inside : node < tree.size) :
    tree.postorder node <:+: tree.postorder 0 := by
  induction node using Nat.strong_induction_on with
  | _ node ih =>
      rcases Nat.eq_zero_or_pos node with rfl | positive
      · exact List.infix_rfl
      · have smaller := tree.parent_lt node positive
        refine List.IsInfix.trans ?_ (ih (tree.parent node) smaller (by omega))
        rw [postorder_eq tree (tree.parent node)]
        have childMem : node ∈ tree.children (tree.parent node) := by simp [inside, positive]
        rcases List.append_of_mem childMem with ⟨before, after, split⟩
        rw [split]
        refine ⟨before.flatMap tree.postorder,
          after.flatMap tree.postorder ++ [tree.parent node], ?_⟩
        simp

/-! ### A traversal that has finished a prefix of the postorder -/

section Frontier

variable {done rest : List ℕ} {curr : ℕ}

/-- Everything below a finished node is finished. -/
theorem mem_done_of_isAncestor (split : tree.postorder 0 = done ++ rest) {top node : ℕ}
    (topDone : top ∈ done) (inside : node < tree.size) (above : tree.IsAncestor top node) :
    node ∈ done := by
  have topInside : top < tree.size := above.le.trans_lt inside
  have unique : (tree.postorder 0).Nodup := nodup_postorder (by omega)
  have nodeMem := (mem_postorder topInside).mpr ⟨inside, above⟩
  rcases postorder_isInfix topInside with ⟨before, after, block⟩
  rw [split] at unique
  have aligned : before ++ tree.postorder top ++ after = done ++ rest := block.trans split
  rcases List.append_eq_append_iff.mp aligned with ⟨extra, doneEq, _⟩ | ⟨extra, blockEq, restEq⟩
  · rw [doneEq]
    simp [nodeMem]
  · -- the block reaches past the finished part, yet its last node is finished
    rcases List.eq_nil_or_concat extra with rfl | ⟨initial, last, rfl⟩
    · rw [List.append_nil] at blockEq
      rw [← blockEq]
      simp [nodeMem]
    · rw [postorder_eq, List.concat_eq_append, ← List.append_assoc, ← List.append_assoc] at blockEq
      have lastEq := List.append_inj_right' blockEq rfl
      have topRest : top ∈ rest := by
        rw [restEq, List.concat_eq_append]
        simp only [List.cons.injEq, and_true] at lastEq
        simp [lastEq]
      exact absurd topRest (List.disjoint_of_nodup_append unique topDone)

/-- The children of the next node to be finished are finished. -/
theorem mem_done_of_mem_children (positive : 0 < tree.size)
    (split : tree.postorder 0 = done ++ curr :: rest) {child : ℕ}
    (childMem : child ∈ tree.children curr) : child ∈ done := by
  have unique : (tree.postorder 0).Nodup := nodup_postorder positive
  have inside : curr < tree.size := by
    have mem : curr ∈ tree.postorder 0 := by simp [split]
    exact ((mem_postorder positive).mp mem).1
  rcases postorder_isInfix inside with ⟨before, after, block⟩
  rw [postorder_eq, ← List.append_assoc, List.append_assoc, List.singleton_append] at block
  have apart : curr ∉ before ++ (tree.children curr).flatMap tree.postorder ∧ curr ∉ after := by
    rw [← block] at unique
    refine ⟨fun mem => List.disjoint_of_nodup_append unique mem List.mem_cons_self, ?_⟩
    exact (List.nodup_cons.mp (List.Nodup.of_append_right unique)).1
  have same := (List.append_cons_inj_of_notMem apart.1 apart.2).mp (block.trans split)
  rw [← same.1]
  apply List.mem_append_right
  apply List.mem_flatMap.mpr
  exact ⟨child, childMem, (mem_postorder (mem_children.mp childMem).1).mpr
    ⟨(mem_children.mp childMem).1, IsAncestor.refl child⟩⟩

/-- A node that is still open although something below it is finished is an
ancestor of the node to be finished next. -/
theorem isAncestor_next_of_open (split : tree.postorder 0 = done ++ curr :: rest)
    {top node : ℕ} (nodeDone : node ∈ done) (above : tree.IsAncestor top node)
    (topOpen : top ∉ done) : tree.IsAncestor top curr := by
  have sizePositive : 0 < tree.size := by
    by_contra empty
    have bare : tree.postorder 0 = [0] := by
      rw [postorder_eq]
      simp [children, Nat.eq_zero_of_not_pos empty]
    rw [bare] at split
    have lengths := congrArg List.length split
    have : 0 < done.length := List.length_pos_of_mem nodeDone
    simp at lengths
    omega
  have nodeMem : node ∈ tree.postorder 0 := by simp [split, nodeDone]
  have inside := ((mem_postorder sizePositive).mp nodeMem).1
  have topInside : top < tree.size := above.le.trans_lt inside
  have unique : (tree.postorder 0).Nodup := nodup_postorder sizePositive
  have nodeBlock := (mem_postorder topInside).mpr ⟨inside, above⟩
  rcases postorder_isInfix topInside with ⟨before, after, block⟩
  rw [split] at unique
  have aligned : before ++ (tree.postorder top ++ after) = done ++ curr :: rest := by
    rw [← List.append_assoc, block, split]
  rcases List.append_eq_append_iff.mp aligned with ⟨extra, doneEq, tailEq⟩ | ⟨extra, beforeEq, tailEq⟩
  · -- the block starts inside the finished part
    rcases List.append_eq_append_iff.mp tailEq with ⟨more, extraEq, _⟩ | ⟨more, blockEq, moreEq⟩
    · have topDone : top ∈ done := by
        rw [doneEq, extraEq]
        simp [(mem_postorder topInside).mpr ⟨topInside, IsAncestor.refl top⟩]
      exact absurd topDone topOpen
    · cases more with
      | nil =>
          have topDone : top ∈ done := by
            rw [List.append_nil] at blockEq
            rw [doneEq, ← blockEq]
            simp [(mem_postorder topInside).mpr ⟨topInside, IsAncestor.refl top⟩]
          exact absurd topDone topOpen
      | cons first more =>
          simp only [List.cons_append, List.cons.injEq] at moreEq
          have currMem : curr ∈ tree.postorder top := by
            rw [blockEq, moreEq.1]
            simp
          exact ((mem_postorder topInside).mp currMem).2
  · -- the block starts at or after the next node, so nothing in it is finished
    have nodeRest : node ∈ curr :: rest := by
      rw [tailEq]
      simp [nodeBlock]
    exact absurd nodeRest (List.disjoint_of_nodup_append unique nodeDone)

/-- Whatever is finished between two nodes of a subtree lies in the subtree. -/
theorem isAncestor_of_between {before after : List ℕ} {top first middle last : ℕ}
    (split : tree.postorder 0 = before ++ middle :: after) (inside : last < tree.size)
    (firstMem : first ∈ before) (lastMem : last ∈ after)
    (aboveFirst : tree.IsAncestor top first) (aboveLast : tree.IsAncestor top last) :
    tree.IsAncestor top middle := by
  apply isAncestor_next_of_open split firstMem aboveFirst
  intro topDone
  have unique : (tree.postorder 0).Nodup := nodup_postorder (by omega)
  rw [split] at unique
  have lastDone := mem_done_of_isAncestor split topDone inside aboveLast
  exact List.disjoint_of_nodup_append unique lastDone (List.mem_cons_of_mem _ lastMem)

end Frontier

/-! ### Lowest common ancestors -/

/-- `low` is the lowest common ancestor of two nodes. -/
structure IsLca (tree : ParentTree) (low left right : ℕ) : Prop where
  aboveLeft : tree.IsAncestor low left
  aboveRight : tree.IsAncestor low right
  lowest : ∀ top, tree.IsAncestor top left → tree.IsAncestor top right → tree.IsAncestor top low

/-- A subtree contains the lowest common ancestor of two nodes iff it contains both. -/
theorem IsLca.isAncestor_iff {low left right : ℕ} (lca : tree.IsLca low left right) (top : ℕ) :
    tree.IsAncestor top low ↔ tree.IsAncestor top left ∧ tree.IsAncestor top right :=
  ⟨fun above => ⟨above.trans lca.aboveLeft, above.trans lca.aboveRight⟩,
    fun both => lca.lowest top both.1 both.2⟩

/-- The lowest open ancestor of a finished node is its lowest common ancestor
with the node to be finished next. -/
theorem isLca_of_lowest_open {done rest : List ℕ} {curr prev low : ℕ}
    (split : tree.postorder 0 = done ++ curr :: rest) (inside : curr < tree.size)
    (prevDone : prev ∈ done) (above : tree.IsAncestor low prev) (lowOpen : low ∉ done)
    (lowest : ∀ top, tree.IsAncestor top prev → top ∉ done → tree.IsAncestor top low) :
    tree.IsLca low prev curr where
  aboveLeft := above
  aboveRight := isAncestor_next_of_open split prevDone above lowOpen
  lowest := by
    intro top topPrev topCurr
    apply lowest top topPrev
    intro topDone
    have unique : (tree.postorder 0).Nodup := nodup_postorder (by omega)
    rw [split] at unique
    have currDone := mem_done_of_isAncestor split topDone inside topCurr
    exact List.disjoint_of_nodup_append unique currDone List.mem_cons_self

end ParentTree

end Foundation
