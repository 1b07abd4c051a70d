import PigTree.Engine.Traversal

/-!
# Phases 3 and 4: rolling sizes up the tree

Both loops follow the postorder, so a directory is settled after its children
and from their final values. The recurrence this leaves behind is stated with
pure folds over the children; the loops add only the checks that can abort.
-/

namespace PigTree

open Foundation ParentTree

/-- Add one settled child to the running sums. -/
def ChildSums.add (sums : ChildSums) (child : CompactEntry) : ChildSums where
  sumLogical := saturatingAdd sums.sumLogical (child.logicalSize.getD 0)
  sumReferenced := saturatingAdd sums.sumReferenced child.referencedAllocatedBytes
  sumKnownSubtotal := saturatingAdd sums.sumKnownSubtotal child.knownSubtotalAllocatedBytes
  childUniqueSum := sums.childUniqueSum + child.uniqueAllocatedBytes.toNat
  allKnown := sums.allKnown && child.allocatedSizeKnown &&
    !(child.kind = .file && child.allocatedSize.isNone)

/-- The sums before the first child. -/
def ChildSums.start (selfAlloc : UInt64) : ChildSums where
  sumLogical := 0
  sumReferenced := selfAlloc
  sumKnownSubtotal := selfAlloc
  childUniqueSum := 0
  allKnown := true

/-- The sums over all children. -/
def ChildSums.of (selfAlloc : UInt64) (children : List CompactEntry) : ChildSums :=
  children.foldl ChildSums.add (ChildSums.start selfAlloc)

/-- The entry of a directory with the sums of its children. -/
def CompactEntry.rolledUp (compact : CompactEntry) (sums : ChildSums) (net : ℤ) : CompactEntry :=
  { compact with
    logicalSize := some sums.sumLogical
    referencedAllocatedBytes := sums.sumReferenced
    knownSubtotalAllocatedBytes := sums.sumKnownSubtotal
    allocatedSize := some sums.sumReferenced
    allocatedSizeKnown := sums.allKnown
    uniqueAllocatedBytes := UInt64.ofNat net.toNat }

namespace ChildSums

theorem foldl_childUniqueSum (children : List CompactEntry) (sums : ChildSums) :
    (children.foldl ChildSums.add sums).childUniqueSum = sums.childUniqueSum +
      (children.map (fun child => (child.uniqueAllocatedBytes.toNat : ℤ))).sum := by
  induction children generalizing sums with
  | nil => simp
  | cons child children ih =>
      rw [List.foldl_cons, ih, List.map_cons, List.sum_cons, ← add_assoc]
      rfl

theorem of_childUniqueSum (selfAlloc : UInt64) (children : List CompactEntry) :
    (ChildSums.of selfAlloc children).childUniqueSum =
      (children.map (fun child => (child.uniqueAllocatedBytes.toNat : ℤ))).sum := by
  rw [ChildSums.of, foldl_childUniqueSum]
  exact zero_add _

theorem foldl_sumLogical (children : List CompactEntry) (sums : ChildSums) :
    (children.foldl ChildSums.add sums).sumLogical = children.foldl
      (fun sum child => saturatingAdd sum (child.logicalSize.getD 0)) sums.sumLogical := by
  induction children generalizing sums with
  | nil => rfl
  | cons child children ih => exact ih (sums.add child)

theorem foldl_sumReferenced (children : List CompactEntry) (sums : ChildSums) :
    (children.foldl ChildSums.add sums).sumReferenced = children.foldl
      (fun sum child => saturatingAdd sum child.referencedAllocatedBytes) sums.sumReferenced := by
  induction children generalizing sums with
  | nil => rfl
  | cons child children ih => exact ih (sums.add child)

theorem foldl_sumKnownSubtotal (children : List CompactEntry) (sums : ChildSums) :
    (children.foldl ChildSums.add sums).sumKnownSubtotal = children.foldl
      (fun sum child => saturatingAdd sum child.knownSubtotalAllocatedBytes)
        sums.sumKnownSubtotal := by
  induction children generalizing sums with
  | nil => rfl
  | cons child children ih => exact ih (sums.add child)

/-- Unique sizes of less than `2 ^ 32` children stay far below the 128-bit bound. -/
theorem of_childUniqueSum_bounds (selfAlloc : UInt64) {children : List CompactEntry}
    (short : children.length < 2 ^ 32) :
    0 ≤ (ChildSums.of selfAlloc children).childUniqueSum ∧
      (ChildSums.of selfAlloc children).childUniqueSum ≤ 2 ^ 96 := by
  have bounds : ∀ items : List CompactEntry,
      0 ≤ (items.map (fun child => (child.uniqueAllocatedBytes.toNat : ℤ))).sum ∧
        (items.map (fun child => (child.uniqueAllocatedBytes.toNat : ℤ))).sum ≤
          2 ^ 64 * items.length := by
    intro items
    induction items with
    | nil => simp
    | cons child items ih =>
        have word := child.uniqueAllocatedBytes.toNat_lt
        rw [List.map_cons, List.sum_cons, List.length_cons]
        push_cast
        omega
  rw [of_childUniqueSum]
  have total := bounds children
  refine ⟨total.1, ?_⟩
  omega

end ChildSums

namespace GraphBuilder

variable {builder : GraphBuilder} {s : Snapshot} {entries : List CompactEntry}
  {objects : List ObjectRecord}

/-! ### Leaves -/

/-- The unique size phase 3 gives an entry; directories keep theirs. -/
def leafSettled (objects : List ObjectRecord) (compact : CompactEntry) : CompactEntry :=
  match compact.kind with
  | .file =>
      if compact.objectIndex ≠ noObject then
        { compact with uniqueAllocatedBytes :=
            (objects[compact.objectIndex.toNat]?).elim 0 ObjectRecord.weight }
      else { compact with uniqueAllocatedBytes := compact.allocatedSize.getD 0 }
  | .special => { compact with uniqueAllocatedBytes := 0 }
  | .directory => compact

theorem setLeafUnique_ok {idx : ℕ} {compact : CompactEntry} (found : entries[idx]? = some compact)
    (bounded : compact.objectIndex ≠ noObject → compact.objectIndex.toNat < objects.length) :
    setLeafUnique objects entries idx = .ok (entries.set idx (leafSettled objects compact)) := by
  have inside := (List.getElem?_eq_some_iff.mp found).1
  rw [setLeafUnique, getAt_of_getElem? found, Checked.ok_bind]
  unfold leafSettled
  cases compact.kind with
  | directory =>
      have same : entries.set idx compact = entries := by
        rw [← (List.getElem?_eq_some_iff.mp found).2, List.set_getElem_self]
      simp [same]
  | special => simp [setAt_of_lt inside]
  | file =>
      by_cases owned : compact.objectIndex ≠ noObject
      · have object := List.getElem?_eq_getElem (bounded owned)
        simp [owned, getAt_of_getElem? object, setAt_of_lt inside, object]
      · simp [owned, setAt_of_lt inside]

/-- Phase 3 settles every entry once. -/
theorem setLeaves_ok (table : ObjectTable s entries objects) {order : List ℕ}
    (nodup : order.Nodup) (inside : ∀ idx ∈ order, idx < s.entries.length) :
    ∃ leaves, order.foldlM (setLeafUnique objects) entries = .ok leaves ∧
      leaves.length = s.entries.length ∧
      ∀ (idx : ℕ) (compact : CompactEntry), entries[idx]? = some compact →
        leaves[idx]? = some (if idx ∈ order then leafSettled objects compact else compact) := by
  refine foldlM_ok order (fun seen (leaves : List CompactEntry) =>
    leaves.length = s.entries.length ∧
      ∀ (idx : ℕ) (compact : CompactEntry), entries[idx]? = some compact →
        leaves[idx]? = some (if idx ∈ seen then leafSettled objects compact else compact)) ?_ ?_
  · exact ⟨table.tagged.length_eq, fun idx compact found => by simpa using found⟩
  · intro seen idx rest leaves split holds
    have idxInside := inside idx (by simp [split])
    have bound : idx < entries.length := table.tagged.length_eq ▸ idxInside
    rcases exists_getElem? bound with ⟨compact, found⟩
    have unseen : idx ∉ seen := by
      rw [split] at nodup
      exact fun mem => List.disjoint_of_nodup_append nodup mem List.mem_cons_self
    have current := holds.2 idx compact found
    rw [if_neg unseen] at current
    refine ⟨_, setLeafUnique_ok current (table.bounded compact (List.mem_of_getElem? found)),
      by simpa using holds.1, ?_⟩
    intro other otherCompact otherFound
    by_cases same : idx = other
    · subst same
      rw [found, Option.some.injEq] at otherFound
      subst otherFound
      rw [List.getElem?_set_self (by rw [holds.1]; exact idxInside)]
      simp
    · have different : ¬other = idx := fun equal => same equal.symm
      rw [List.getElem?_set_ne same, holds.2 other otherCompact otherFound]
      simp [different]

/-! ### One directory -/

/-- The settled entries of the children of a position. -/
def childEntries (s : Snapshot) (entries : List CompactEntry) (idx : ℕ) : List CompactEntry :=
  (s.tree.children idx).filterMap (fun child => entries[child]?)

/-- The sums phase 4 computes for a directory. -/
def sumsAt (builder : GraphBuilder) (s : Snapshot) (entries : List CompactEntry) (idx : ℕ) :
    ChildSums :=
  ChildSums.of ((builder.dirSelfAlloc[idx]?).getD 0) (childEntries s entries idx)

/-- The unique bytes of a directory before they are asserted and truncated. -/
def netAt (builder : GraphBuilder) (s : Snapshot) (treeDelta : List ℤ)
    (entries : List CompactEntry) (idx : ℕ) : ℤ :=
  (builder.sumsAt s entries idx).childUniqueSum + deltaOf treeDelta idx +
    ((builder.dirSelfAlloc[idx]?).getD 0).toNat

theorem length_childEntries_le (s : Snapshot) (entries : List CompactEntry) (idx : ℕ) :
    (childEntries s entries idx).length ≤ s.entries.length := by
  have filtered : (childEntries s entries idx).length ≤ (s.tree.children idx).length :=
    List.length_filterMap_le _ _
  have listed : (s.tree.children idx).length ≤ s.entries.length := by
    have short := List.length_filter_le
      (fun child => decide (0 < child ∧ s.tree.parent child = idx)) (List.range s.entries.length)
    simpa [ParentTree.children] using short
  omega

/-- One pass of the loop over the children, without the step to the next sibling. -/
def addChild (entries : List CompactEntry) (sums : ChildSums) (child : ℕ) : Checked ChildSums := do
  let compact ← getAt entries child
  let childUniqueSum ← checkedI128 "child unique sum overflow"
    (sums.childUniqueSum + compact.uniqueAllocatedBytes.toNat)
  return { sums.add compact with childUniqueSum }

theorem addChild_fold (selfAlloc : UInt64) {children : List ℕ}
    (inside : ∀ child ∈ children, child < entries.length) (short : children.length < 2 ^ 32) :
    children.foldlM (addChild entries) (ChildSums.start selfAlloc) =
      .ok (ChildSums.of selfAlloc (children.filterMap (fun child => entries[child]?))) := by
  have loop : ∃ sums, children.foldlM (addChild entries) (ChildSums.start selfAlloc) = .ok sums ∧
      sums = ChildSums.of selfAlloc (children.filterMap (fun child => entries[child]?)) := by
    refine foldlM_ok children (fun seen sums =>
      sums = ChildSums.of selfAlloc (seen.filterMap (fun child => entries[child]?))) rfl ?_
    rintro seen child rest sums split rfl
    rcases exists_getElem? (inside child (by simp [split])) with ⟨compact, found⟩
    have seenShort : (seen.filterMap (fun child => entries[child]?)).length < 2 ^ 32 := by
      have filtered : (seen.filterMap (fun child => entries[child]?)).length ≤ seen.length :=
        List.length_filterMap_le _ _
      rw [split, List.length_append] at short
      omega
    have bounds := ChildSums.of_childUniqueSum_bounds selfAlloc seenShort
    have word := compact.uniqueAllocatedBytes.toNat_lt
    refine ⟨_, ?_, rfl⟩
    rw [addChild, getAt_of_getElem? found, Checked.ok_bind, checkedI128, if_pos (by omega),
      Checked.ok_bind, List.filterMap_append, List.filterMap_cons_some found, List.filterMap_nil,
      ChildSums.of, ChildSums.of, List.foldl_append]
    rfl
  rcases loop with ⟨sums, ran, rfl⟩
  exact ran

/-- The loop over the children of a directory computes the fold. -/
theorem sumChildren_ok (core : Core builder s.entries) (small : s.entries.length < 2 ^ 32)
    (length_eq : entries.length = s.entries.length) {idx : ℕ} (inside : idx < s.entries.length) :
    builder.sumChildren entries idx = .ok (builder.sumsAt s entries idx) := by
  rcases core.chain_children small inside with ⟨first, firstFound, chain⟩
  have selfBound : idx < builder.dirSelfAlloc.length := by
    rw [core.selfAlloc_eq, List.length_map]
    exact inside
  have selfFound := List.getElem?_eq_getElem selfBound
  generalize builder.dirSelfAlloc[idx] = selfAlloc at selfFound
  have few : (s.tree.children idx).length < entries.length + 1 := by
    have short : (kids (parentIndex s.entries) s.entries.length idx).length ≤ s.entries.length :=
      length_kids_le
    rw [length_eq]
    exact Nat.lt_succ_of_le short
  have loop : whileSome (builder.sumChildrenStep entries) (entries.length + 1)
      (ChildSums.start selfAlloc, first) = (s.tree.children idx).foldlM (addChild entries)
        (ChildSums.start selfAlloc) >>= fun sums => .ok (sums, u32Max) := by
    refine chain.whileSome_eq ?_ ?_ few _
    · intro sums
      simp [sumChildrenStep]
    · intro sums cursor after running link
      simp only [sumChildrenStep, if_neg running, addChild, getAt_of_getElem? link]
      cases getAt entries cursor.toNat with
      | error fault => rfl
      | ok compact =>
          simp only [Checked.ok_bind]
          cases checkedI128 "child unique sum overflow"
            (sums.childUniqueSum + compact.uniqueAllocatedBytes.toNat) <;> rfl
  have childrenInside : ∀ child ∈ s.tree.children idx, child < entries.length := by
    intro child childMem
    rw [length_eq]
    exact (mem_children.mp childMem).1
  rw [addChild_fold selfAlloc childrenInside (by omega), Checked.ok_bind] at loop
  rw [sumChildren, getAt_of_getElem? selfFound, Checked.ok_bind, getAt_of_getElem? firstFound,
    Checked.ok_bind]
  simp only [ChildSums.start] at loop
  rw [loop, Checked.ok_bind, sumsAt, selfFound]
  rfl

/-- The unique bytes of a directory: the arithmetic never overflows, so only the
assertion decides. -/
theorem netUnique_eq (core : Core builder s.entries) (small : s.entries.length < 2 ^ 32)
    {treeDelta : List ℤ} (delta_length : treeDelta.length = s.entries.length)
    (bounds : ∀ idx, -(2 ^ 96) ≤ deltaOf treeDelta idx ∧ deltaOf treeDelta idx ≤ 0)
    {idx : ℕ} (inside : idx < s.entries.length) (id : UInt32) :
    builder.netUnique treeDelta (builder.sumsAt s entries idx).childUniqueSum idx id =
      if 0 ≤ builder.netAt s treeDelta entries idx then
        .ok (builder.netAt s treeDelta entries idx)
      else .error (negativeUnique (builder.netAt s treeDelta entries idx) id) := by
  have selfBound : idx < builder.dirSelfAlloc.length := by
    rw [core.selfAlloc_eq, List.length_map]
    exact inside
  have selfFound := List.getElem?_eq_getElem selfBound
  generalize builder.dirSelfAlloc[idx] = selfAlloc at selfFound
  have deltaFound : getAt treeDelta idx = .ok (deltaOf treeDelta idx) := by
    apply getAt_of_getElem?
    simp [deltaOf, delta_length, inside]
  have sums := ChildSums.of_childUniqueSum_bounds ((builder.dirSelfAlloc[idx]?).getD 0)
    ((length_childEntries_le s entries idx).trans_lt small)
  have delta := bounds idx
  have word := selfAlloc.toNat_lt
  simp only [netAt, sumsAt, selfFound, Option.getD_some] at sums ⊢
  rw [netUnique, getAt_of_getElem? selfFound, Checked.ok_bind, deltaFound, Checked.ok_bind,
    checkedI128, if_pos (by omega), Checked.ok_bind, checkedI128, if_pos (by omega),
    Checked.ok_bind]
  rfl

/-- A directory aborts exactly when its unique bytes come out negative. -/
theorem aggregateDirectory_eq (core : Core builder s.entries) (small : s.entries.length < 2 ^ 32)
    (length_eq : entries.length = s.entries.length) {treeDelta : List ℤ}
    (delta_length : treeDelta.length = s.entries.length)
    (bounds : ∀ idx, -(2 ^ 96) ≤ deltaOf treeDelta idx ∧ deltaOf treeDelta idx ≤ 0)
    {idx : ℕ} {compact : CompactEntry} (found : entries[idx]? = some compact) :
    builder.aggregateDirectory treeDelta entries idx =
      if compact.kind = .directory then
        if 0 ≤ builder.netAt s treeDelta entries idx then
          .ok (entries.set idx (compact.rolledUp (builder.sumsAt s entries idx)
            (builder.netAt s treeDelta entries idx)))
        else .error (negativeUnique (builder.netAt s treeDelta entries idx) compact.id)
      else .ok entries := by
  have inside := (List.getElem?_eq_some_iff.mp found).1
  rw [aggregateDirectory, getAt_of_getElem? found, Checked.ok_bind]
  by_cases directory : compact.kind = .directory
  · rw [if_neg (not_not_intro directory), if_pos directory,
      sumChildren_ok core small length_eq (length_eq ▸ inside), Checked.ok_bind,
      netUnique_eq core small delta_length bounds (length_eq ▸ inside)]
    split
    · rw [Checked.ok_bind, setAt_of_lt inside]
      rfl
    · rfl
  · rw [if_pos directory, if_neg directory]
    rfl

/-! ### The recurrence -/

/-- The directories in `done` are settled from their children; every other entry
is as phase 3 left it. -/
structure Rolled (builder : GraphBuilder) (s : Snapshot) (treeDelta : List ℤ)
    (leaves : List CompactEntry) (done : List ℕ) (entries : List CompactEntry) : Prop where
  length_eq : entries.length = s.entries.length
  plain : ∀ (idx : ℕ) (leaf : CompactEntry), leaves[idx]? = some leaf →
    leaf.kind ≠ .directory ∨ idx ∉ done → entries[idx]? = some leaf
  rolled : ∀ (idx : ℕ) (leaf : CompactEntry), leaves[idx]? = some leaf → leaf.kind = .directory →
    idx ∈ done → 0 ≤ builder.netAt s treeDelta entries idx ∧
      entries[idx]? = some (leaf.rolledUp (builder.sumsAt s entries idx)
        (builder.netAt s treeDelta entries idx))

section Recurrence

variable {treeDelta : List ℤ} {leaves : List CompactEntry} {done rest : List ℕ} {idx : ℕ}

theorem Rolled.start (length_eq : leaves.length = s.entries.length) :
    Rolled builder s treeDelta leaves [] leaves where
  length_eq := length_eq
  plain := fun _ _ found _ => found
  rolled := by simp

/-- Sums over children depend on the children only. -/
theorem childEntries_set {other : ℕ} (compact : CompactEntry)
    (apart : idx ∉ s.tree.children other) :
    childEntries s (entries.set idx compact) other = childEntries s entries other := by
  apply List.filterMap_congr
  intro child childMem
  apply List.getElem?_set_ne
  rintro rfl
  exact apart childMem

theorem next_open (sizePos : 0 < s.tree.size)
    (split : s.tree.postorder 0 = done ++ idx :: rest) : idx ∉ done := by
  have unique := nodup_postorder sizePos
  rw [split] at unique
  exact fun mem => List.disjoint_of_nodup_append unique mem List.mem_cons_self

/-- The next entry of the postorder is not a child of a finished one, nor of itself. -/
theorem next_apart (sizePos : 0 < s.tree.size)
    (split : s.tree.postorder 0 = done ++ idx :: rest) {other : ℕ}
    (finished : other ∈ done ∨ other = idx) : idx ∉ s.tree.children other := by
  intro isChild
  rcases finished with otherDone | rfl
  · have above : s.tree.IsAncestor other idx := by
      rw [← (mem_children.mp isChild).2.2]
      exact s.tree.isAncestor_parent idx
    exact next_open sizePos split
      (mem_done_of_isAncestor split otherDone (mem_children.mp isChild).1 above)
  · exact lt_irrefl _ (lt_of_mem_children isChild)

/-- Passing an entry that is not a directory. -/
theorem Rolled.pass (rolled : Rolled builder s treeDelta leaves done entries) {leaf : CompactEntry}
    (found : leaves[idx]? = some leaf) (plain : leaf.kind ≠ .directory) :
    Rolled builder s treeDelta leaves (done ++ [idx]) entries where
  length_eq := rolled.length_eq
  plain := by
    intro other otherLeaf otherFound kept
    apply rolled.plain other otherLeaf otherFound
    rcases kept with other_plain | notDone
    · exact Or.inl other_plain
    · exact Or.inr (fun mem => notDone (List.mem_append_left _ mem))
  rolled := by
    intro other otherLeaf otherFound directory otherDone
    apply rolled.rolled other otherLeaf otherFound directory
    rcases List.mem_append.mp otherDone with old | new
    · exact old
    · rw [List.mem_singleton] at new
      subst new
      rw [found, Option.some.injEq] at otherFound
      exact absurd directory (otherFound ▸ plain)

/-- Settling the next directory of the postorder. -/
theorem Rolled.settle (rolled : Rolled builder s treeDelta leaves done entries)
    (sizePos : 0 < s.tree.size) (split : s.tree.postorder 0 = done ++ idx :: rest)
    {leaf : CompactEntry} (found : leaves[idx]? = some leaf) (directory : leaf.kind = .directory)
    (nonneg : 0 ≤ builder.netAt s treeDelta entries idx) :
    Rolled builder s treeDelta leaves (done ++ [idx])
      (entries.set idx (leaf.rolledUp (builder.sumsAt s entries idx)
        (builder.netAt s treeDelta entries idx))) := by
  have currOpen := next_open sizePos split
  have before := rolled.plain idx leaf found (Or.inr currOpen)
  have inside := (List.getElem?_eq_some_iff.mp before).1
  have sums : ∀ other compact, other ∈ done ∨ other = idx →
      builder.sumsAt s (entries.set idx compact) other = builder.sumsAt s entries other := by
    intro other compact finished
    rw [sumsAt, sumsAt, childEntries_set compact (next_apart sizePos split finished)]
  have nets : ∀ other compact, other ∈ done ∨ other = idx →
      builder.netAt s treeDelta (entries.set idx compact) other =
        builder.netAt s treeDelta entries other := by
    intro other compact finished
    rw [netAt, netAt, sums other compact finished]
  exact {
    length_eq := by simpa using rolled.length_eq
    plain := by
      intro other otherLeaf otherFound kept
      have different : idx ≠ other := by
        rintro rfl
        rw [found, Option.some.injEq] at otherFound
        rcases kept with plain | notDone
        · exact plain (otherFound ▸ directory)
        · exact notDone (by simp)
      rw [List.getElem?_set_ne different]
      apply rolled.plain other otherLeaf otherFound
      rcases kept with plain | notDone
      · exact Or.inl plain
      · exact Or.inr (fun mem => notDone (List.mem_append_left _ mem))
    rolled := by
      intro other otherLeaf otherFound otherDirectory otherDone
      rcases List.mem_append.mp otherDone with old | new
      · have different : idx ≠ other := fun same => currOpen (same ▸ old)
        rw [sums other _ (Or.inl old), nets other _ (Or.inl old), List.getElem?_set_ne different]
        exact rolled.rolled other otherLeaf otherFound otherDirectory old
      · rw [List.mem_singleton] at new
        subst new
        rw [found, Option.some.injEq] at otherFound
        subst otherFound
        rw [sums other _ (Or.inr rfl), nets other _ (Or.inr rfl), List.getElem?_set_self inside]
        exact ⟨nonneg, rfl⟩ }

/-- What the pass over one entry does: it aborts at a directory with negative
unique bytes and otherwise settles one more entry. -/
theorem Rolled.step (rolled : Rolled builder s treeDelta leaves done entries)
    (core : Core builder s.entries) (small : s.entries.length < 2 ^ 32)
    (delta_length : treeDelta.length = s.entries.length)
    (bounds : ∀ idx, -(2 ^ 96) ≤ deltaOf treeDelta idx ∧ deltaOf treeDelta idx ≤ 0)
    (sizePos : 0 < s.tree.size) (split : s.tree.postorder 0 = done ++ idx :: rest)
    {leaf : CompactEntry} (found : leaves[idx]? = some leaf) :
    (leaf.kind = .directory ∧ builder.netAt s treeDelta entries idx < 0 ∧
        ∃ fault, builder.aggregateDirectory treeDelta entries idx = .error fault) ∨
      ((leaf.kind = .directory → 0 ≤ builder.netAt s treeDelta entries idx) ∧
        ∃ next, builder.aggregateDirectory treeDelta entries idx = .ok next ∧
          Rolled builder s treeDelta leaves (done ++ [idx]) next) := by
  have before := rolled.plain idx leaf found (Or.inr (next_open sizePos split))
  rw [aggregateDirectory_eq core small rolled.length_eq delta_length bounds before]
  by_cases directory : leaf.kind = .directory
  · rw [if_pos directory]
    by_cases nonneg : 0 ≤ builder.netAt s treeDelta entries idx
    · rw [if_pos nonneg]
      exact Or.inr ⟨fun _ => nonneg, _, rfl, rolled.settle sizePos split found directory nonneg⟩
    · rw [if_neg nonneg]
      exact Or.inl ⟨directory, not_le.mp nonneg, _, rfl⟩
  · rw [if_neg directory]
    exact Or.inr ⟨fun isDirectory => absurd isDirectory directory, entries, rfl,
      rolled.pass found directory⟩

theorem found_of_split (sizePos : 0 < s.tree.size)
    (leaves_length : leaves.length = s.entries.length)
    (split : s.tree.postorder 0 = done ++ idx :: rest) :
    ∃ leaf, leaves[idx]? = some leaf := by
  have mem : idx ∈ s.tree.postorder 0 := by simp [split]
  have inside := ((mem_postorder sizePos).mp mem).1
  exact ⟨_, List.getElem?_eq_getElem (leaves_length.symm ▸ inside)⟩

section Runs

variable (core : Core builder s.entries) (small : s.entries.length < 2 ^ 32)
  (delta_length : treeDelta.length = s.entries.length)
  (bounds : ∀ idx, -(2 ^ 96) ≤ deltaOf treeDelta idx ∧ deltaOf treeDelta idx ≤ 0)
  (sizePos : 0 < s.tree.size) (leaves_length : leaves.length = s.entries.length)

include core small delta_length bounds sizePos leaves_length

/-- If no directory comes out negative, phase 4 returns and the recurrence holds everywhere. -/
theorem rollup_ok (nonneg : ∀ done idx rest entries leaf,
      s.tree.postorder 0 = done ++ idx :: rest → Rolled builder s treeDelta leaves done entries →
        leaves[idx]? = some leaf → leaf.kind = .directory →
          0 ≤ builder.netAt s treeDelta entries idx) :
    ∃ final, (s.tree.postorder 0).foldlM (builder.aggregateDirectory treeDelta) leaves = .ok final ∧
      Rolled builder s treeDelta leaves (s.tree.postorder 0) final := by
  refine foldlM_ok _ (fun done entries => Rolled builder s treeDelta leaves done entries)
    (Rolled.start leaves_length) ?_
  intro done idx rest entries split rolled
  rcases found_of_split sizePos leaves_length split with ⟨leaf, found⟩
  rcases rolled.step core small delta_length bounds sizePos split found with
    ⟨directory, negative, _⟩ | ⟨_, next, ran, carried⟩
  · exact absurd negative (not_lt.mpr (nonneg done idx rest entries leaf split rolled found directory))
  · exact ⟨next, ran, carried⟩

/-- If phase 4 returns, the recurrence holds everywhere. -/
theorem rollup_invariant {final : List CompactEntry}
    (ran : (s.tree.postorder 0).foldlM (builder.aggregateDirectory treeDelta) leaves = .ok final) :
    Rolled builder s treeDelta leaves (s.tree.postorder 0) final := by
  refine foldlM_invariant _ (fun done entries => Rolled builder s treeDelta leaves done entries)
    (Rolled.start leaves_length) ?_ ran
  intro done idx rest entries next split rolled stepped
  rcases found_of_split sizePos leaves_length split with ⟨leaf, found⟩
  rcases rolled.step core small delta_length bounds sizePos split found with
    ⟨_, _, fault, aborted⟩ | ⟨_, other, ran, carried⟩
  · rw [aborted] at stepped
    cases stepped
  · rw [ran, Except.ok.injEq] at stepped
    exact stepped ▸ carried

end Runs

end Recurrence

end GraphBuilder

end PigTree
