import PigTree.Engine.Rollup

/-!
# Unique allocation

The exact unique bytes of a subtree satisfy the recurrence the code computes
with corrections: children, self allocation and correction of a directory add up
to them. The code keeps them modulo `2 ^ 64`, so what it asserts about a
directory is that the parts its children lost do not exceed what it has itself.
-/

namespace PigTree

open Foundation ParentTree EntryObservation

namespace Snapshot

variable {s : Snapshot}

/-- The files in a subtree, by position. -/
def filesIn (s : Snapshot) (idx : ℕ) : Finset ℕ :=
  (s.tree.subtree idx).filter (fun node => (objectKey s.entries node).isSome)

/-- The key of the file at a position. -/
def keyOf (s : Snapshot) (idx : ℕ) : ObjectKey := (objectKey s.entries idx).getD (.alone idx)

/-- The unique bytes of a subtree, by position. -/
def uniqueAt (s : Snapshot) (idx : ℕ) : ℕ :=
  ∑ node ∈ s.tree.subtree idx, s.valueAt selfAllocated node +
    ∑ key ∈ (s.filesIn idx).image s.keyOf, keyWeight s key

/-- What the entry at a position contributes before corrections. -/
def ownBytes (s : Snapshot) (idx : ℕ) : ℕ :=
  (objectKey s.entries idx).elim (s.valueAt selfAllocated idx) (keyWeight s)

theorem objectKey_eq_shared_iff {idx : ℕ} {identity : ObjectIdentity} :
    objectKey s.entries idx = some (.shared identity) ↔
      ∃ entry, s.entries[idx]? = some entry ∧ entry.fileIdentity = some identity := by
  unfold objectKey
  cases s.entries[idx]? with
  | none => simp
  | some entry =>
      cases entry with
      | directory dir => simp [fileIdentity]
      | file file => cases identified : file.objectId <;> simp [fileIdentity, identified]
      | special special => simp [fileIdentity]

theorem objectKey_eq_alone {idx other : ℕ} (keyed : objectKey s.entries idx = some (.alone other)) :
    other = idx := by
  unfold objectKey at keyed
  split at keyed
  · next file _ =>
      cases identified : file.objectId <;> simp [identified] at keyed
      exact keyed.symm
  · cases keyed
  · cases keyed
  · cases keyed

/-- A position without a key of its own has no anonymous allocation. -/
theorem anonymous_of_objectKey {idx : ℕ} (different : objectKey s.entries idx ≠ some (.alone idx)) :
    s.valueAt anonymousAllocated idx = 0 := by
  cases found : s.entries[idx]? with
  | none => simp [valueAt, found]
  | some entry =>
      rw [valueAt_of_found found]
      cases entry with
      | directory dir => rfl
      | file file =>
          cases identified : file.objectId with
          | none => simp [objectKey, found, identified] at different
          | some identity => simp [anonymousAllocated, fileIdentity, identified]
      | special special => rfl

theorem mem_identities {top : ℕ} {topEntry : EntryObservation}
    (topFound : s.entries[top]? = some topEntry) {identity : ObjectIdentity} :
    identity ∈ s.identities topEntry.entryId ↔
      ∃ node ∈ s.tree.subtree top, objectKey s.entries node = some (.shared identity) := by
  simp only [identities, List.mem_toFinset, List.mem_filterMap]
  constructor
  · rintro ⟨entry, entryMem, identified⟩
    rcases List.mem_iff_getElem?.mp (mem_entries_of_mem_subtree entryMem) with ⟨node, found⟩
    refine ⟨node, ?_, objectKey_eq_shared_iff.mpr ⟨entry, found, identified⟩⟩
    exact mem_subtree.mpr ⟨(List.getElem?_eq_some_iff.mp found).1,
      (mem_subtree_at topFound found).mp entryMem⟩
  · rintro ⟨node, nodeMem, keyed⟩
    rcases objectKey_eq_shared_iff.mp keyed with ⟨entry, found, identified⟩
    exact ⟨entry, (mem_subtree_at topFound found).mpr (mem_subtree.mp nodeMem).2, identified⟩

/-- The keys in a subtree are its identities and its files without identity. -/
theorem image_keyOf {top : ℕ} {topEntry : EntryObservation}
    (topFound : s.entries[top]? = some topEntry) :
    (s.filesIn top).image s.keyOf = (s.identities topEntry.entryId).image .shared ∪
      ((s.tree.subtree top).filter
        (fun node => objectKey s.entries node = some (.alone node))).image .alone := by
  ext key
  simp only [filesIn, keyOf, Finset.mem_image, Finset.mem_filter, Finset.mem_union,
    mem_identities topFound]
  constructor
  · rintro ⟨node, ⟨nodeMem, isFile⟩, rfl⟩
    rcases Option.isSome_iff_exists.mp isFile with ⟨key, keyed⟩
    cases key with
    | shared identity => exact Or.inl ⟨identity, ⟨node, nodeMem, keyed⟩, by simp [keyed]⟩
    | alone other =>
        have same := objectKey_eq_alone keyed
        subst same
        exact Or.inr ⟨other, ⟨nodeMem, keyed⟩, by simp [keyed]⟩
  · rintro (⟨identity, ⟨node, nodeMem, keyed⟩, rfl⟩ | ⟨node, ⟨nodeMem, keyed⟩, rfl⟩)
    · exact ⟨node, ⟨nodeMem, by simp [keyed]⟩, by simp [keyed]⟩
    · exact ⟨node, ⟨nodeMem, by simp [keyed]⟩, by simp [keyed]⟩

/-- The two ways to state the unique bytes of a subtree agree. -/
theorem uniqueAt_eq {top : ℕ} {topEntry : EntryObservation}
    (topFound : s.entries[top]? = some topEntry) :
    s.uniqueAt top = s.uniqueBytes topEntry.entryId := by
  have apart : Disjoint ((s.identities topEntry.entryId).image ObjectKey.shared)
      (((s.tree.subtree top).filter
        (fun node => objectKey s.entries node = some (.alone node))).image .alone) := by
    rw [Finset.disjoint_left]
    intro key shared alone
    rcases Finset.mem_image.mp shared with ⟨_, _, rfl⟩
    rcases Finset.mem_image.mp alone with ⟨_, _, same⟩
    cases same
  have anonymous : ∑ node ∈ s.tree.subtree top, s.valueAt anonymousAllocated node =
      ∑ node ∈ (s.tree.subtree top).filter
        (fun node => objectKey s.entries node = some (.alone node)),
        s.valueAt anonymousAllocated node := by
    symm
    apply Finset.sum_subset (Finset.filter_subset _ _)
    intro node nodeMem notAlone
    apply anonymous_of_objectKey
    intro keyed
    exact notAlone (Finset.mem_filter.mpr ⟨nodeMem, keyed⟩)
  rw [uniqueAt, uniqueBytes, sum_subtree topFound, sum_subtree topFound, image_keyOf topFound,
    Finset.sum_union apart, anonymous, Finset.sum_image, Finset.sum_image, ← Nat.add_assoc]
  · rfl
  · intro left _ right _ same
    exact ObjectKey.alone.inj same
  · intro left _ right _ same
    exact ObjectKey.shared.inj same

end Snapshot

namespace GraphBuilder

variable {s : Snapshot} {entries : List CompactEntry} {objects : List ObjectRecord} {curr : ℕ}

/-! ### Groups and keys -/

/-- What the traversal makes of the file at a position: nothing is subtracted for
it, and it has no object or one without weight, or it is a member of the group of its object. -/
theorem group_cases (table : ObjectTable s entries objects) (inside : curr < s.entries.length) :
    (objectKey s.entries curr = none ∧ shareGroup entries objects curr = none) ∨
      ∃ key, objectKey s.entries curr = some key ∧
        ((shareGroup entries objects curr = none ∧ (key = .alone curr ∨ keyWeight s key = 0)) ∨
          ∃ compact, entries[curr]? = some compact ∧ compact.objectIndex ≠ noObject ∧
            shareGroup entries objects curr = some compact.objectIndex.toNat ∧
              objectWeight objects compact.objectIndex.toNat = keyWeight s key ∧
                0 < keyWeight s key) := by
  rcases table.tagged.tagged curr _ (List.getElem?_eq_getElem inside) with
    ⟨objectIndex, known, stored⟩
  rcases shareGroup_cases table inside with ⟨compact, found, cases⟩
  rw [stored, Option.some.injEq] at found
  have kindEq : compact.kind = (s.entries[curr]).kind := by simp [← found]
  cases keyed : objectKey s.entries curr with
  | none =>
      left
      have notFile : compact.kind ≠ .file := by
        rw [kindEq]
        unfold objectKey at keyed
        rw [List.getElem?_eq_getElem inside] at keyed
        cases entry : s.entries[curr] with
        | directory dir => simp [kind]
        | file file => simp [entry] at keyed
        | special special => simp [kind]
      rcases cases with ⟨_, none⟩ | ⟨owned, _⟩
      · exact ⟨rfl, none⟩
      · exact absurd owned.1 notFile
  | some key =>
      right
      refine ⟨key, rfl, ?_⟩
      have isFile : compact.kind = .file := by
        rw [kindEq]
        unfold objectKey at keyed
        rw [List.getElem?_eq_getElem inside] at keyed
        cases entry : s.entries[curr] with
        | directory dir => simp [entry] at keyed
        | file file => rfl
        | special special => simp [entry] at keyed
      have storedCompact : entries[curr]? = some compact := by rw [stored, found]
      rcases cases with ⟨notOwned, none⟩ | ⟨owned, obj, objFound, light | heavy⟩
      · left
        have unused : compact.objectIndex = noObject := by
          by_contra used
          exact notOwned ⟨isFile, used⟩
        exact ⟨none, Or.inl (table.missing curr compact key storedCompact unused keyed)⟩
      · left
        rcases table.weighs curr compact key storedCompact owned.2 keyed with
          ⟨other, otherFound, weight⟩
        rw [objFound, Option.some.injEq] at otherFound
        refine ⟨light.2, Or.inr ?_⟩
        rw [← weight, ← otherFound]
        have zero := light.1
        rw [UInt64.lt_iff_toNat_lt] at zero
        simpa using zero
      · right
        rcases table.weighs curr compact key storedCompact owned.2 keyed with
          ⟨other, otherFound, weight⟩
        rw [objFound, Option.some.injEq] at otherFound
        refine ⟨compact, storedCompact, owned.2, heavy.2, ?_, ?_⟩
        · rw [objectWeight, objFound, ← weight, ← otherFound]
          rfl
        · rw [← weight, ← otherFound]
          have positive := heavy.1
          rw [UInt64.lt_iff_toNat_lt] at positive
          simpa using positive

/-! ### The corrections make the sum exact -/

section Exact

variable {treeDelta : List ℤ} {lastOccurrence : ℕ → Option ℕ} {top : ℕ}

/-- The members of groups below a position. -/
def groupedIn (s : Snapshot) (entries : List CompactEntry) (objects : List ObjectRecord)
    (top : ℕ) : Finset ℕ :=
  (s.tree.subtree top).filter (fun node => (shareGroup entries objects node).isSome)

/-- The files below a position that belong to no group. -/
def ungroupedIn (s : Snapshot) (entries : List CompactEntry) (objects : List ObjectRecord)
    (top : ℕ) : Finset ℕ :=
  (s.filesIn top).filter (fun node => shareGroup entries objects node = none)

theorem filesIn_eq (table : ObjectTable s entries objects) (top : ℕ) :
    s.filesIn top = groupedIn s entries objects top ∪ ungroupedIn s entries objects top := by
  ext node
  simp only [Snapshot.filesIn, groupedIn, ungroupedIn, Finset.mem_union, Finset.mem_filter]
  constructor
  · rintro ⟨nodeMem, isFile⟩
    cases shareGroup entries objects node with
    | none => exact Or.inr ⟨⟨nodeMem, isFile⟩, rfl⟩
    | some owner => exact Or.inl ⟨nodeMem, rfl⟩
  · rintro (⟨nodeMem, grouped⟩ | ⟨file, _⟩)
    · refine ⟨nodeMem, ?_⟩
      rcases group_cases table (mem_subtree.mp nodeMem).1 with ⟨_, none⟩ | ⟨key, keyed, _⟩
      · simp [none] at grouped
      · simp [keyed]
    · exact file

/-- The groups that occur below a position weigh as much as their keys. -/
theorem sum_groups (table : ObjectTable s entries objects) (top : ℕ) :
    ∑ owner ∈ (Finset.range objects.length).filter
        (fun owner => ∃ node ∈ s.tree.subtree top, shareGroup entries objects node = some owner),
        (objectWeight objects owner : ℤ) =
      ∑ key ∈ (groupedIn s entries objects top).image s.keyOf, (keyWeight s key : ℤ) := by
  have owners : (Finset.range objects.length).filter
      (fun owner => ∃ node ∈ s.tree.subtree top, shareGroup entries objects node = some owner) =
      (groupedIn s entries objects top).image
        (fun node => (shareGroup entries objects node).getD 0) := by
    ext owner
    simp only [groupedIn, Finset.mem_filter, Finset.mem_range, Finset.mem_image]
    constructor
    · rintro ⟨_, node, nodeMem, grouped⟩
      exact ⟨node, ⟨nodeMem, by simp [grouped]⟩, by simp [grouped]⟩
    · rintro ⟨node, ⟨nodeMem, isGrouped⟩, named⟩
      rcases Option.isSome_iff_exists.mp isGrouped with ⟨other, grouped⟩
      rw [grouped, Option.getD_some] at named
      subst named
      rcases group_cases table (mem_subtree.mp nodeMem).1 with
        ⟨_, none⟩ | ⟨key, _, ⟨none, _⟩ | ⟨compact, found, used, isGroup, _⟩⟩
      · rw [grouped] at none
        cases none
      · rw [grouped] at none
        cases none
      · rw [grouped, Option.some.injEq] at isGroup
        refine ⟨?_, node, nodeMem, grouped⟩
        rw [isGroup]
        exact table.bounded compact (List.mem_of_getElem? found) used
  -- in a group, keys, compact entries and owners determine each other
  have member : ∀ node ∈ groupedIn s entries objects top, ∃ key compact,
      objectKey s.entries node = some key ∧ entries[node]? = some compact ∧
        compact.objectIndex ≠ noObject ∧
        shareGroup entries objects node = some compact.objectIndex.toNat ∧
        objectWeight objects compact.objectIndex.toNat = keyWeight s key := by
    intro node nodeMem
    rcases Finset.mem_filter.mp nodeMem with ⟨inSubtree, isGrouped⟩
    rcases group_cases table (mem_subtree.mp inSubtree).1 with
      ⟨_, none⟩ | ⟨key, keyed, ⟨none, _⟩ | ⟨compact, found, used, isGroup, weight, _⟩⟩
    · simp [none] at isGrouped
    · simp [none] at isGrouped
    · exact ⟨key, compact, keyed, found, used, isGroup, weight⟩
  rw [owners]
  apply sum_image_eq_of_iff
  · intro left leftMem right rightMem
    rcases member left leftMem with ⟨leftKey, leftCompact, leftKeyed, leftFound, leftUsed, leftGroup, _⟩
    rcases member right rightMem with
      ⟨rightKey, rightCompact, rightKeyed, rightFound, rightUsed, rightGroup, _⟩
    simp only [leftGroup, rightGroup, Option.getD_some, Snapshot.keyOf, leftKeyed, rightKeyed]
    rw [UInt32.toNat_inj]
    exact table.shares left right leftCompact rightCompact leftKey rightKey leftFound rightFound
      leftUsed rightUsed leftKeyed rightKeyed
  · intro node nodeMem
    rcases member node nodeMem with ⟨key, compact, keyed, _, _, isGroup, weight⟩
    simp only [isGroup, Option.getD_some, Snapshot.keyOf, keyed, weight]

/-- Files that belong to no group have keys of their own, or keys without weight. -/
theorem sum_ungrouped (table : ObjectTable s entries objects) (top : ℕ) :
    ∑ key ∈ (ungroupedIn s entries objects top).image s.keyOf, (keyWeight s key : ℤ) =
      ∑ node ∈ ungroupedIn s entries objects top, (keyWeight s (s.keyOf node) : ℤ) := by
  apply Finset.sum_image_of_pairwise_eq_zero
  intro left leftMem right rightMem different same
  have light : ∀ node ∈ ungroupedIn s entries objects top,
      s.keyOf node = .alone node ∨ keyWeight s (s.keyOf node) = 0 := by
    intro node nodeMem
    rcases Finset.mem_filter.mp nodeMem with ⟨isFile, ungrouped⟩
    rcases Finset.mem_filter.mp isFile with ⟨inSubtree, hasKey⟩
    rcases group_cases table (mem_subtree.mp inSubtree).1 with
      ⟨none, _⟩ | ⟨key, keyed, ⟨_, alone | zero⟩ | ⟨compact, _, _, isGroup, _⟩⟩
    · simp [none] at hasKey
    · exact Or.inl (by simp [Snapshot.keyOf, keyed, alone])
    · exact Or.inr (by simp [Snapshot.keyOf, keyed, zero])
    · rw [isGroup] at ungrouped
      cases ungrouped
  rcases light left leftMem with leftAlone | zero
  · rcases light right rightMem with rightAlone | zero
    · rw [leftAlone, rightAlone] at same
      exact absurd (ObjectKey.alone.inj same) different
    · rw [same]
      exact_mod_cast zero
  · exact_mod_cast zero

theorem keys_disjoint (table : ObjectTable s entries objects) (top : ℕ) {key : ObjectKey}
    (grouped : key ∈ (groupedIn s entries objects top).image s.keyOf)
    (ungrouped : key ∈ (ungroupedIn s entries objects top).image s.keyOf) : False := by
  rcases Finset.mem_image.mp grouped with ⟨left, leftMem, rfl⟩
  rcases Finset.mem_image.mp ungrouped with ⟨right, rightMem, same⟩
  rcases Finset.mem_filter.mp leftMem with ⟨leftInside, isGrouped⟩
  rcases Finset.mem_filter.mp rightMem with ⟨isFile, notGrouped⟩
  rcases Finset.mem_filter.mp isFile with ⟨rightInside, hasKey⟩
  rcases group_cases table (mem_subtree.mp leftInside).1 with
    ⟨_, none⟩ | ⟨leftKey, leftKeyed, ⟨none, _⟩ | ⟨compact, _, _, _, _, positive⟩⟩
  · simp [none] at isGrouped
  · simp [none] at isGrouped
  · rcases group_cases table (mem_subtree.mp rightInside).1 with
      ⟨none, _⟩ | ⟨rightKey, rightKeyed, ⟨_, alone | zero⟩ | ⟨_, _, _, isGroup, _⟩⟩
    · simp [none] at hasKey
    · simp only [Snapshot.keyOf, leftKeyed, rightKeyed, Option.getD_some] at same
      rw [← same, alone] at leftKeyed
      have equal := Snapshot.objectKey_eq_alone leftKeyed
      subst equal
      simp [notGrouped] at isGrouped
    · simp only [Snapshot.keyOf, leftKeyed, rightKeyed, Option.getD_some] at same
      rw [same] at zero
      omega
    · rw [isGroup] at notGrouped
      cases notGrouped

/-- What an entry contributes itself beyond the weight of its group. -/
theorem ownBytes_eq (table : ObjectTable s entries objects) {node : ℕ}
    (inside : node < s.entries.length) :
    (s.ownBytes node : ℤ) =
      (shareGroup entries objects node).elim 0 (fun owner => (objectWeight objects owner : ℤ)) +
        (s.valueAt selfAllocated node +
          if (objectKey s.entries node).isSome ∧ shareGroup entries objects node = none then
            (keyWeight s (s.keyOf node) : ℤ) else 0) := by
  have noSelf : ∀ key, objectKey s.entries node = some key → s.valueAt selfAllocated node = 0 := by
    intro key keyed
    unfold objectKey at keyed
    rw [List.getElem?_eq_getElem inside] at keyed
    rw [Snapshot.valueAt_of_found (List.getElem?_eq_getElem inside)]
    cases entry : s.entries[node] with
    | directory dir => simp [entry] at keyed
    | file file => rfl
    | special special => rfl
  rcases group_cases table inside with
    ⟨noKey, none⟩ | ⟨key, keyed, ⟨none, _⟩ | ⟨compact, _, _, isGroup, weight, _⟩⟩
  · simp [Snapshot.ownBytes, noKey, none]
  · simp [Snapshot.ownBytes, keyed, none, noSelf key keyed, Snapshot.keyOf]
  · simp [Snapshot.ownBytes, keyed, isGroup, noSelf key keyed, weight]

/-- Own contributions and corrections over a subtree add up to its unique bytes. -/
theorem sum_ownBytes (table : ObjectTable s entries objects)
    (accounts : Accounts s.tree (shareGroup entries objects) (objectWeight objects) objects.length
      (2 ^ 64) (s.tree.postorder 0) (deltaOf treeDelta) lastOccurrence)
    (inside : top < s.entries.length) :
    ∑ node ∈ s.tree.subtree top, ((s.ownBytes node : ℤ) + deltaOf treeDelta node) =
      (s.uniqueAt top : ℤ) := by
  have owned : ∀ node owner, shareGroup entries objects node = some owner →
      owner < objects.length := by
    intro node owner grouped
    by_cases nodeInside : node < s.entries.length
    · rcases group_cases table nodeInside with
        ⟨_, none⟩ | ⟨key, _, ⟨none, _⟩ | ⟨compact, found, used, isGroup, _⟩⟩
      · rw [grouped] at none
        cases none
      · rw [grouped] at none
        cases none
      · rw [grouped, Option.some.injEq] at isGroup
        rw [isGroup]
        exact table.bounded compact (List.mem_of_getElem? found) used
    · have outside : entries[node]? = none :=
        List.getElem?_eq_none (by rw [table.tagged.length_eq]; omega)
      simp [shareGroup, outside] at grouped
  have split : ∀ node ∈ s.tree.subtree top, (s.ownBytes node : ℤ) + deltaOf treeDelta node =
      ((shareGroup entries objects node).elim 0 (fun owner => (objectWeight objects owner : ℤ)) +
        deltaOf treeDelta node) + (s.valueAt selfAllocated node +
          if (objectKey s.entries node).isSome ∧ shareGroup entries objects node = none then
            (keyWeight s (s.keyOf node) : ℤ) else 0) := by
    intro node nodeMem
    rw [ownBytes_eq table (mem_subtree.mp nodeMem).1]
    ring
  have ungrouped : ∑ node ∈ s.tree.subtree top,
      (if (objectKey s.entries node).isSome ∧ shareGroup entries objects node = none then
        (keyWeight s (s.keyOf node) : ℤ) else 0) =
      ∑ node ∈ ungroupedIn s entries objects top, (keyWeight s (s.keyOf node) : ℤ) := by
    rw [← Finset.sum_filter]
    congr 1
    ext node
    simp only [ungroupedIn, Snapshot.filesIn, Finset.mem_filter, and_assoc]
  have keys : (∑ key ∈ (s.filesIn top).image s.keyOf, (keyWeight s key : ℤ)) =
      ∑ key ∈ (groupedIn s entries objects top).image s.keyOf, (keyWeight s key : ℤ) +
        ∑ key ∈ (ungroupedIn s entries objects top).image s.keyOf, (keyWeight s key : ℤ) := by
    rw [filesIn_eq table top, Finset.image_union]
    apply Finset.sum_union
    rw [Finset.disjoint_left]
    exact fun key grouped ungrouped => keys_disjoint table top grouped ungrouped
  rw [Finset.sum_congr rfl split, Finset.sum_add_distrib, accounts.subtree_total owned inside,
    sum_groups table top, Finset.sum_add_distrib, ungrouped, ← sum_ungrouped table top,
    Snapshot.uniqueAt]
  push_cast
  rw [keys]
  ring

/-- The unique bytes of a subtree are those of the children, its own and its correction. -/
theorem uniqueAt_children (table : ObjectTable s entries objects)
    (accounts : Accounts s.tree (shareGroup entries objects) (objectWeight objects) objects.length
      (2 ^ 64) (s.tree.postorder 0) (deltaOf treeDelta) lastOccurrence)
    (inside : top < s.entries.length) :
    (s.uniqueAt top : ℤ) = ((s.tree.children top).map (fun child => (s.uniqueAt child : ℤ))).sum +
      (s.ownBytes top + deltaOf treeDelta top) := by
  rw [← sum_ownBytes table accounts inside, ParentTree.sum_subtree inside]
  congr 2
  apply List.map_congr_left
  intro child childMem
  exact sum_ownBytes table accounts (mem_children.mp childMem).1

end Exact

end GraphBuilder

end PigTree
