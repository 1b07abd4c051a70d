import PigTree.Foundation.ParentTree

/-!
# Counting shared weights once

Some nodes of a rooted tree belong to a group, and each group has a weight. A
traversal that finishes the nodes in postorder subtracts the weight of a group
at the lowest common ancestor of two consecutive members. After the whole
postorder, adding these corrections to the members' weights over any subtree
counts every group that occurs in the subtree exactly once.

The argument counts repetitions. Among the finished nodes of one subtree a
group with `k` members has `k - 1` repetitions, and the corrections inside the
subtree sum to minus the repeated weight: the subtree is contiguous in the
postorder, so the previous member lies in it as soon as any earlier one does.
-/

namespace Foundation

/-- Two ways to name the classes of one partition give the same sum over the classes. -/
theorem sum_image_eq_of_iff {ι α β M : Type*} [DecidableEq ι] [DecidableEq α] [DecidableEq β]
    [AddCommMonoid M] {members : Finset ι} {left : ι → α} {right : ι → β} {leftValue : α → M}
    {rightValue : β → M}
    (classes : ∀ x ∈ members, ∀ y ∈ members, left x = left y ↔ right x = right y)
    (values : ∀ x ∈ members, leftValue (left x) = rightValue (right x)) :
    ∑ a ∈ members.image left, leftValue a = ∑ b ∈ members.image right, rightValue b := by
  induction members using Finset.induction_on with
  | empty => simp
  | insert x members _ ih =>
      have tail := ih (fun y yMem z zMem => classes y (Finset.mem_insert_of_mem yMem) z
        (Finset.mem_insert_of_mem zMem)) (fun y yMem => values y (Finset.mem_insert_of_mem yMem))
      have known : left x ∈ members.image left ↔ right x ∈ members.image right := by
        simp only [Finset.mem_image]
        constructor
        · rintro ⟨y, yMem, same⟩
          exact ⟨y, yMem, (classes y (Finset.mem_insert_of_mem yMem) x
            (Finset.mem_insert_self _ _)).mp same⟩
        · rintro ⟨y, yMem, same⟩
          exact ⟨y, yMem, (classes y (Finset.mem_insert_of_mem yMem) x
            (Finset.mem_insert_self _ _)).mpr same⟩
      rw [Finset.image_insert, Finset.image_insert]
      by_cases old : left x ∈ members.image left
      · rw [Finset.insert_eq_of_mem old, Finset.insert_eq_of_mem (known.mp old)]
        exact tail
      · rw [Finset.sum_insert old, Finset.sum_insert (fun mem => old (known.mpr mem)), tail,
          values x (Finset.mem_insert_self _ _)]

namespace ParentTree

variable {tree : ParentTree} {group : ℕ → Option ℕ} {weight : ℕ → ℕ}
  {groups bound : ℕ} {done rest : List ℕ} {delta : ℕ → ℤ} {last : ℕ → Option ℕ} {curr : ℕ}

/-- The finished members of a group inside a subtree. -/
def membersIn (tree : ParentTree) (group : ℕ → Option ℕ) (done : List ℕ) (top owner : ℕ) : ℕ :=
  done.countP (fun node => group node = some owner ∧ tree.IsAncestor top node)

theorem membersIn_append (top owner : ℕ) :
    tree.membersIn group (done ++ [curr]) top owner =
      tree.membersIn group done top owner +
        (if group curr = some owner ∧ tree.IsAncestor top curr then 1 else 0) := by
  simp [membersIn, List.countP_append, List.countP_singleton]

/-- The bookkeeping of the traversal after it has finished `done`: the last
member seen of each group, and corrections whose subtree sums are minus the
repeated weight. -/
structure Accounts (tree : ParentTree) (group : ℕ → Option ℕ) (weight : ℕ → ℕ)
    (groups bound : ℕ) (done : List ℕ) (delta : ℕ → ℤ) (last : ℕ → Option ℕ) : Prop where
  last_eq : ∀ owner < groups,
    last owner = (done.filter (fun node => group node = some owner)).getLast?
  delta_sum : ∀ top < tree.size, ∑ node ∈ tree.subtree top, delta node =
    -∑ owner ∈ Finset.range groups,
      (weight owner : ℤ) * ((tree.membersIn group done top owner - 1 : ℕ) : ℤ)
  delta_leaf : ∀ node < tree.size, tree.children node = [] → delta node = 0
  delta_nonpos : ∀ node, delta node ≤ 0
  delta_lower : ∀ node, -((bound * done.length : ℕ) : ℤ) ≤ delta node

namespace Accounts

theorem initial (tree : ParentTree) (group : ℕ → Option ℕ) (weight : ℕ → ℕ)
    (groups bound : ℕ) :
    Accounts tree group weight groups bound [] (fun _ => 0) (fun _ => none) where
  last_eq := by simp
  delta_sum := by simp [membersIn]
  delta_leaf := by simp
  delta_nonpos := by simp
  delta_lower := by simp

theorem last_mem (accounts : Accounts tree group weight groups bound done delta last)
    {owner prev : ℕ} (owned : owner < groups) (seen : last owner = some prev) :
    prev ∈ done ∧ group prev = some owner := by
  rw [accounts.last_eq owner owned] at seen
  have mem := List.mem_of_getLast? seen
  simpa using mem

/-- A node outside every group changes nothing. -/
theorem finish_plain (accounts : Accounts tree group weight groups bound done delta last)
    (plain : group curr = none) :
    Accounts tree group weight groups bound (done ++ [curr]) delta last where
  last_eq := by
    intro owner owned
    rw [accounts.last_eq owner owned]
    simp [plain]
  delta_sum := by
    intro top inside
    rw [accounts.delta_sum top inside]
    simp [membersIn_append, plain]
  delta_leaf := accounts.delta_leaf
  delta_nonpos := accounts.delta_nonpos
  delta_lower := by
    intro node
    have lower := accounts.delta_lower node
    rw [List.length_append, List.length_singleton, Nat.mul_add]
    omega

/-- The last member seen of each group once the next member is finished. -/
theorem last_update (accounts : Accounts tree group weight groups bound done delta last)
    {owner : ℕ} (member : group curr = some owner) (other : ℕ) (owned : other < groups) :
    Function.update last owner (some curr) other =
      ((done ++ [curr]).filter (fun node => group node = some other)).getLast? := by
  by_cases same : other = owner
  · subst same
    simp [member]
  · have different : ¬owner = other := fun equal => same equal.symm
    simp [Function.update_of_ne same, accounts.last_eq other owned, member, different]

/-- The first member of a group needs no correction. -/
theorem finish_first (accounts : Accounts tree group weight groups bound done delta last)
    {owner : ℕ} (owned : owner < groups) (member : group curr = some owner)
    (unseen : last owner = none) :
    Accounts tree group weight groups bound (done ++ [curr]) delta
      (Function.update last owner (some curr)) where
  last_eq := fun other otherOwned => accounts.last_update member other otherOwned
  delta_sum := by
    intro top inside
    rw [accounts.delta_sum top inside]
    congr 1
    apply Finset.sum_congr rfl
    intro other _
    by_cases same : other = owner
    · subst same
      have none : tree.membersIn group done top other = 0 := by
        rw [accounts.last_eq other owned, List.getLast?_eq_none_iff, List.filter_eq_nil_iff] at unseen
        rw [membersIn, List.countP_eq_zero]
        intro node nodeDone
        have := unseen node nodeDone
        simp only [decide_eq_true_eq] at this ⊢
        exact fun both => this both.1
      rw [membersIn_append, none]
      split <;> simp
    · have different : ¬owner = other := fun equal => same equal.symm
      simp [membersIn_append, member, different]
  delta_leaf := accounts.delta_leaf
  delta_nonpos := accounts.delta_nonpos
  delta_lower := by
    intro node
    have lower := accounts.delta_lower node
    rw [List.length_append, List.length_singleton, Nat.mul_add]
    omega

/-- The last member finished is at or after every other one. -/
theorem split_at_last (accounts : Accounts tree group weight groups bound done delta last)
    {owner prev node : ℕ} (owned : owner < groups) (seen : last owner = some prev)
    (nodeDone : node ∈ done) (member : group node = some owner) :
    node = prev ∨ ∃ before after, done = before ++ prev :: after ∧ node ∈ before := by
  rw [accounts.last_eq owner owned, List.getLast?_eq_some_iff] at seen
  rcases seen with ⟨earlier, filtered⟩
  rcases List.filter_eq_append_iff.mp filtered with ⟨left, right, doneEq, _, rightEq⟩
  rcases List.filter_eq_cons_iff.mp rightEq with ⟨skipped, after, rightSplit, none, _, afterEq⟩
  rw [List.filter_eq_nil_iff] at afterEq
  rw [doneEq, rightSplit] at nodeDone
  simp only [List.mem_append, List.mem_cons] at nodeDone
  rcases nodeDone with inLeft | inSkipped | same | inAfter
  · exact Or.inr ⟨left ++ skipped, after, by simp [doneEq, rightSplit], by simp [inLeft]⟩
  · exact absurd (by simp [member]) (none node inSkipped)
  · exact Or.inl same
  · exact absurd (by simp [member]) (afterEq node inAfter)

/-- Finishing a further member repeats its group in exactly the subtrees that
contain the lowest common ancestor with the previous member. -/
theorem repeated_step (accounts : Accounts tree group weight groups bound done delta last)
    (split : tree.postorder 0 = done ++ curr :: rest) (inside : curr < tree.size)
    {owner prev low top : ℕ} (owned : owner < groups) (member : group curr = some owner)
    (seen : last owner = some prev) (lca : tree.IsLca low prev curr) :
    tree.membersIn group (done ++ [curr]) top owner - 1 =
      (tree.membersIn group done top owner - 1) + if tree.IsAncestor top low then 1 else 0 := by
  have prevMember := accounts.last_mem owned seen
  rw [membersIn_append]
  by_cases topCurr : tree.IsAncestor top curr
  · rw [if_pos ⟨member, topCurr⟩]
    by_cases topPrev : tree.IsAncestor top prev
    · have some : 0 < tree.membersIn group done top owner := by
        rw [membersIn, List.countP_pos_iff]
        exact ⟨prev, prevMember.1, by simp [prevMember.2, topPrev]⟩
      rw [if_pos ((lca.isAncestor_iff top).mpr ⟨topPrev, topCurr⟩)]
      omega
    · have none : tree.membersIn group done top owner = 0 := by
        rw [membersIn, List.countP_eq_zero]
        intro node nodeDone
        simp only [decide_eq_true_eq]
        rintro ⟨nodeMember, topNode⟩
        apply topPrev
        rcases accounts.split_at_last owned seen nodeDone nodeMember with
          rfl | ⟨before, after, doneEq, nodeBefore⟩
        · exact topNode
        · rw [doneEq, List.append_assoc, List.cons_append] at split
          exact isAncestor_of_between split inside nodeBefore (by simp) topNode topCurr
      rw [none, if_neg (fun topLow => topPrev (topLow.trans lca.aboveLeft))]
  · rw [if_neg (fun both => topCurr both.2),
      if_neg (fun topLow => topCurr (topLow.trans lca.aboveRight))]
    omega

/-- A further member is corrected at the lowest common ancestor with the previous one. -/
theorem finish_again (accounts : Accounts tree group weight groups bound done delta last)
    (split : tree.postorder 0 = done ++ curr :: rest) (inside : curr < tree.size)
    {owner prev low : ℕ} (owned : owner < groups) (member : group curr = some owner)
    (seen : last owner = some prev) (lca : tree.IsLca low prev curr)
    (bounded : weight owner ≤ bound) :
    Accounts tree group weight groups bound (done ++ [curr])
      (Function.update delta low (delta low - weight owner))
      (Function.update last owner (some curr)) where
  last_eq := fun other otherOwned => accounts.last_update member other otherOwned
  delta_sum := by
    intro top topInside
    have lowInside : low < tree.size := lca.aboveRight.le.trans_lt inside
    have changed : (fun node => Function.update delta low (delta low - weight owner) node) =
        fun node => delta node - if node = low then (weight owner : ℤ) else 0 := by
      funext node
      by_cases same : node = low
      · subst same
        simp
      · simp [same]
    have counted : ∀ other ∈ Finset.range groups,
        (weight other : ℤ) * ((tree.membersIn group (done ++ [curr]) top other - 1 : ℕ) : ℤ) =
          (weight other : ℤ) * ((tree.membersIn group done top other - 1 : ℕ) : ℤ) +
            if other = owner then (if tree.IsAncestor top low then (weight owner : ℤ) else 0)
            else 0 := by
      intro other _
      by_cases same : other = owner
      · subst same
        rw [if_pos rfl, accounts.repeated_step split inside owned member seen lca]
        push_cast
        split <;> ring
      · have different : ¬owner = other := fun equal => same equal.symm
        simp [membersIn_append, member, different, same]
    rw [changed, Finset.sum_sub_distrib, accounts.delta_sum top topInside,
      Finset.sum_congr rfl counted, Finset.sum_add_distrib, Finset.sum_ite_eq',
      Finset.sum_ite_eq', if_pos (Finset.mem_range.mpr owned)]
    simp only [mem_subtree, lowInside, true_and]
    ring
  delta_leaf := by
    intro node nodeInside leaf
    have prevDone := (accounts.last_mem owned seen).1
    have notLow : node ≠ low := by
      rintro rfl
      have openCurr : curr ∉ done := by
        have unique : (tree.postorder 0).Nodup := nodup_postorder (by omega)
        rw [split] at unique
        exact fun currDone =>
          List.disjoint_of_nodup_append unique currDone List.mem_cons_self
      have strict : ∀ below, below < tree.size → tree.IsAncestor node below → node = below := by
        intro below belowInside above
        by_contra different
        rcases exists_child_of_isAncestor belowInside above different with ⟨child, childMem, _⟩
        simp [leaf] at childMem
      have prevInside : prev < tree.size := by
        have mem : prev ∈ tree.postorder 0 := by simp [split, prevDone]
        exact ((mem_postorder (by omega)).mp mem).1
      have atPrev := strict prev prevInside lca.aboveLeft
      have atCurr := strict curr inside lca.aboveRight
      exact openCurr (by rwa [← atCurr, atPrev])
    rw [Function.update_of_ne notLow]
    exact accounts.delta_leaf node nodeInside leaf
  delta_nonpos := by
    intro node
    have nonpos := accounts.delta_nonpos node
    by_cases same : node = low
    · subst same
      simp
      omega
    · rwa [Function.update_of_ne same]
  delta_lower := by
    intro node
    have lower := accounts.delta_lower node
    rw [List.length_append, List.length_singleton, Nat.mul_add]
    by_cases same : node = low
    · subst same
      simp only [Function.update_self]
      omega
    · rw [Function.update_of_ne same]
      omega

/-- Over the whole postorder, the members counted in a subtree are the members in it. -/
theorem membersIn_postorder {top owner : ℕ} (inside : top < tree.size) :
    tree.membersIn group (tree.postorder 0) top owner =
      ((tree.subtree top).filter (fun node => group node = some owner)).card := by
  have unique : (tree.postorder 0).Nodup := nodup_postorder (by omega)
  rw [membersIn, List.countP_eq_length_filter, ← List.toFinset_card_of_nodup (unique.filter _)]
  congr 1
  ext node
  have rootMem : node ∈ tree.postorder 0 ↔ node < tree.size ∧ tree.IsAncestor 0 node :=
    mem_postorder (by omega)
  simp only [List.toFinset_filter, decide_eq_true_eq, Finset.mem_filter, List.mem_toFinset,
    rootMem, mem_subtree]
  constructor
  · rintro ⟨⟨nodeInside, _⟩, member, above⟩
    exact ⟨⟨nodeInside, above⟩, member⟩
  · rintro ⟨⟨nodeInside, above⟩, member⟩
    exact ⟨⟨nodeInside, tree.isAncestor_zero node⟩, member, above⟩

/-- Summing each node's group weight is summing each group's weight per member. -/
theorem sum_groupWeight (owned : ∀ node owner, group node = some owner → owner < groups)
    (nodes : Finset ℕ) :
    ∑ node ∈ nodes, (group node).elim (0 : ℤ) (fun owner => (weight owner : ℤ)) =
      ∑ owner ∈ Finset.range groups,
        (weight owner : ℤ) * ((nodes.filter (fun node => group node = some owner)).card : ℤ) := by
  have spread : ∀ node ∈ nodes, (group node).elim (0 : ℤ) (fun owner => (weight owner : ℤ)) =
      ∑ owner ∈ Finset.range groups, if group node = some owner then (weight owner : ℤ) else 0 := by
    intro node _
    cases grouped : group node with
    | none => simp
    | some owner =>
        simp [Finset.sum_ite_eq, owned node owner grouped]
  rw [Finset.sum_congr rfl spread, Finset.sum_comm]
  apply Finset.sum_congr rfl
  intro owner _
  rw [← Finset.sum_filter, Finset.sum_const, nsmul_eq_mul]
  ring

/-- After the whole postorder, the members' weights in a subtree and the
corrections in it add up to one weight for each group that occurs in it. -/
theorem subtree_total
    (accounts : Accounts tree group weight groups bound (tree.postorder 0) delta last)
    (owned : ∀ node owner, group node = some owner → owner < groups)
    {top : ℕ} (inside : top < tree.size) :
    ∑ node ∈ tree.subtree top, ((group node).elim (0 : ℤ) (fun owner => (weight owner : ℤ)) +
        delta node) =
      ∑ owner ∈ (Finset.range groups).filter
        (fun owner => ∃ node ∈ tree.subtree top, group node = some owner), (weight owner : ℤ) := by
  rw [Finset.sum_add_distrib, sum_groupWeight owned, accounts.delta_sum top inside,
    Finset.sum_filter, ← sub_eq_add_neg, ← Finset.sum_sub_distrib]
  apply Finset.sum_congr rfl
  intro owner _
  rw [membersIn_postorder inside]
  by_cases occurs : ∃ node ∈ tree.subtree top, group node = some owner
  · rw [if_pos occurs]
    rcases occurs with ⟨node, nodeMem, member⟩
    have positive : 0 < ((tree.subtree top).filter (fun node => group node = some owner)).card :=
      Finset.card_pos.mpr ⟨node, Finset.mem_filter.mpr ⟨nodeMem, member⟩⟩
    push_cast [Nat.cast_sub (Nat.one_le_iff_ne_zero.mpr positive.ne')]
    ring
  · rw [if_neg occurs]
    have empty : (tree.subtree top).filter (fun node => group node = some owner) = ∅ := by
      apply Finset.filter_eq_empty_iff.mpr
      intro node nodeMem member
      exact occurs ⟨node, nodeMem, member⟩
    simp [empty]

end Accounts

end ParentTree

end Foundation
