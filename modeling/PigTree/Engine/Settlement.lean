import PigTree.Engine.UniqueBytes

/-!
# The settled values

Every entry that has been settled holds the exact sums over its subtree, cut off
at the largest word or, for the unique bytes, taken modulo `2 ^ 64`. From this
follows when phase 4 aborts: exactly when some directory has fewer unique bytes
than its children have lost to the truncation.
-/

namespace PigTree

open Foundation ParentTree EntryObservation

/-- An entry without the sums and the child slice: what the last phases leave alone. -/
def CompactEntry.fixed (compact : CompactEntry) : CompactEntry :=
  { compact with
    allocatedSizeKnown := false
    logicalSize := none
    allocatedSize := none
    referencedAllocatedBytes := 0
    uniqueAllocatedBytes := 0
    knownSubtotalAllocatedBytes := 0
    childStart := 0
    childCount := 0 }

@[simp]
theorem CompactEntry.rolledUp_fixed (compact : CompactEntry) (sums : ChildSums) (net : ℤ) :
    (compact.rolledUp sums net).fixed = compact.fixed := rfl

namespace Snapshot

variable {s : Snapshot}

/-- Logical bytes of a subtree, by position. -/
def logicalAt (s : Snapshot) (idx : ℕ) : ℕ :=
  ∑ node ∈ s.tree.subtree idx, s.valueAt EntryObservation.logicalBytes node

/-- Observed allocations in a subtree, by position. -/
def referencedAt (s : Snapshot) (idx : ℕ) : ℕ :=
  ∑ node ∈ s.tree.subtree idx, s.valueAt EntryObservation.allocatedBytes node

/-- What the truncation to 64 bits takes from the children of a position, in units of `2 ^ 64`. -/
def lostAt (s : Snapshot) (idx : ℕ) : ℕ :=
  ((s.tree.children idx).map (fun child => s.uniqueAt child / 2 ^ 64)).sum

theorem logicalAt_children {idx : ℕ} (inside : idx < s.entries.length) :
    s.logicalAt idx = ((s.tree.children idx).map s.logicalAt).sum +
      s.valueAt EntryObservation.logicalBytes idx :=
  ParentTree.sum_subtree inside _

theorem referencedAt_children {idx : ℕ} (inside : idx < s.entries.length) :
    s.referencedAt idx = ((s.tree.children idx).map s.referencedAt).sum +
      s.valueAt EntryObservation.allocatedBytes idx :=
  ParentTree.sum_subtree inside _

/-- Entries that are not directories have no children. -/
theorem children_eq_nil {idx : ℕ} {entry : EntryObservation} (found : s.entries[idx]? = some entry)
    (plain : entry.kind ≠ .directory) : s.tree.children idx = [] := by
  apply List.eq_nil_iff_forall_not_mem.mpr
  intro child childMem
  rcases kind_of_mem_children childMem with ⟨other, otherFound, directory⟩
  rw [found, Option.some.injEq] at otherFound
  exact plain (otherFound ▸ directory)

end Snapshot

namespace GraphBuilder

variable {builder : GraphBuilder} {s : Snapshot} {objects : List ObjectRecord}
  {entries leaves final : List CompactEntry} {treeDelta : List ℤ} {done rest : List ℕ}
  {lastOccurrence : ℕ → Option ℕ}

/-- The entries before phase 4: the tagged entries with the unique sizes of the leaves. -/
structure Leaves (s : Snapshot) (entries : List CompactEntry) (objects : List ObjectRecord)
    (leaves : List CompactEntry) : Prop where
  table : ObjectTable s entries objects
  length_eq : leaves.length = s.entries.length
  settled : ∀ (idx : ℕ) (compact : CompactEntry), entries[idx]? = some compact →
    leaves[idx]? = some (leafSettled objects compact)

/-- The corrections of a traversal that accounts for all repeated objects. -/
structure Corrections (s : Snapshot) (entries : List CompactEntry) (objects : List ObjectRecord)
    (treeDelta : List ℤ) (lastOccurrence : ℕ → Option ℕ) : Prop where
  length_eq : treeDelta.length = s.entries.length
  accounts : Accounts s.tree (shareGroup entries objects) (objectWeight objects) objects.length
    (2 ^ 64) (s.tree.postorder 0) (deltaOf treeDelta) lastOccurrence

theorem Corrections.bounds (corrections : Corrections s entries objects treeDelta lastOccurrence)
    (small : s.entries.length < 2 ^ 32) (positive : 0 < s.entries.length) (idx : ℕ) :
    -(2 ^ 96) ≤ deltaOf treeDelta idx ∧ deltaOf treeDelta idx ≤ 0 := by
  have lower := corrections.accounts.delta_lower idx
  have card : (s.tree.postorder 0).length = s.entries.length := length_postorder positive
  rw [card] at lower
  refine ⟨?_, corrections.accounts.delta_nonpos idx⟩
  have product : 2 ^ 64 * s.entries.length ≤ 2 ^ 64 * 2 ^ 32 := Nat.mul_le_mul_left _ small.le
  omega

theorem leafSettled_fixed (compact : CompactEntry) :
    (leafSettled objects compact).fixed = compact.fixed := by
  unfold leafSettled
  split
  · split <;> rfl
  · rfl
  · rfl

theorem leafSettled_kind (compact : CompactEntry) :
    (leafSettled objects compact).kind = compact.kind := by
  unfold leafSettled
  split
  · split <;> rfl
  · rfl
  · rfl

/-- The sums of a leaf are its own values. -/
structure LeafValues (s : Snapshot) (idx : ℕ) (leaf : CompactEntry) : Prop where
  unique : leaf.uniqueAllocatedBytes.toNat = s.ownBytes idx
  logical : (leaf.logicalSize.getD 0).toNat = s.valueAt EntryObservation.logicalBytes idx
  referenced : leaf.referencedAllocatedBytes.toNat = s.valueAt EntryObservation.allocatedBytes idx
  knownSubtotal :
    leaf.knownSubtotalAllocatedBytes.toNat = s.valueAt EntryObservation.allocatedBytes idx

namespace Leaves

theorem found (lvs : Leaves s entries objects leaves) {idx : ℕ} {entry : EntryObservation}
    (at_ : s.entries[idx]? = some entry) :
    ∃ objectIndex known, entries[idx]? = some (entry.tagged objectIndex known) ∧
      leaves[idx]? = some (leafSettled objects (entry.tagged objectIndex known)) := by
  rcases lvs.table.tagged.tagged idx entry at_ with ⟨objectIndex, known, stored⟩
  exact ⟨objectIndex, known, stored, lvs.settled idx _ stored⟩

theorem kind_eq (lvs : Leaves s entries objects leaves) {idx : ℕ} {entry : EntryObservation}
    {leaf : CompactEntry} (at_ : s.entries[idx]? = some entry) (stored : leaves[idx]? = some leaf) :
    leaf.kind = entry.kind := by
  rcases lvs.found at_ with ⟨objectIndex, known, _, leafFound⟩
  rw [stored, Option.some.injEq] at leafFound
  rw [leafFound, leafSettled_kind, tagged_kind]

/-- Phase 3 leaves files and special entries with their own values. -/
theorem values (lvs : Leaves s entries objects leaves) {idx : ℕ} {leaf : CompactEntry}
    (stored : leaves[idx]? = some leaf) (plain : leaf.kind ≠ .directory) :
    LeafValues s idx leaf := by
  have inside := (List.getElem?_eq_some_iff.mp stored).1
  rw [lvs.length_eq] at inside
  have at_ := List.getElem?_eq_getElem inside
  generalize s.entries[idx] = entry at at_
  rcases lvs.found at_ with ⟨objectIndex, known, compactFound, leafFound⟩
  rw [stored, Option.some.injEq] at leafFound
  cases entry with
  | directory dir =>
      rw [leafFound, leafSettled_kind] at plain
      exact absurd rfl plain
  | special special =>
      subst leafFound
      exact {
        unique := by simp [Snapshot.ownBytes, objectKey, at_, Snapshot.valueAt, selfAllocated,
          leafSettled, EntryObservation.tagged, EntryObservation.compact, specialEntry]
        logical := by simp [Snapshot.valueAt, at_, EntryObservation.logicalBytes,
          leafSettled, EntryObservation.tagged, EntryObservation.compact, specialEntry]
        referenced := by simp [Snapshot.valueAt, at_, EntryObservation.allocatedBytes,
          selfAllocated, fileAllocated, leafSettled, EntryObservation.tagged,
          EntryObservation.compact, specialEntry]
        knownSubtotal := by simp [Snapshot.valueAt, at_, EntryObservation.allocatedBytes,
          selfAllocated, fileAllocated, leafSettled, EntryObservation.tagged,
          EntryObservation.compact, specialEntry] }
  | file file =>
      have keyed : objectKey s.entries idx = some (file.objectId.elim (.alone idx) .shared) := by
        simp [objectKey, at_]
      have unique : leaf.uniqueAllocatedBytes.toNat = s.ownBytes idx := by
        rw [Snapshot.ownBytes, keyed, Option.elim_some, leafFound]
        by_cases used : objectIndex ≠ noObject
        · rcases lvs.table.weighs idx _ _ compactFound used keyed with ⟨obj, objFound, weight⟩
          rw [← weight]
          rw [tagged_objectIndex] at objFound
          simp [leafSettled, EntryObservation.tagged, EntryObservation.compact, fileEntry, used,
            objFound]
        · have unused : objectIndex = noObject := not_not.mp used
          have alone := lvs.table.missing idx _ _ compactFound unused keyed
          rw [alone, keyWeight, Snapshot.valueAt_of_found at_]
          have anonymous : file.objectId = none := by
            cases identified : file.objectId with
            | none => rfl
            | some identity => simp [identified] at alone
          simp [leafSettled, EntryObservation.tagged, EntryObservation.compact, fileEntry, unused,
            anonymousAllocated, fileIdentity, anonymous, fileAllocated]
      have rest : leaf.logicalSize = some file.logicalSize ∧
          leaf.referencedAllocatedBytes = file.allocatedSize.getD 0 ∧
          leaf.knownSubtotalAllocatedBytes = file.allocatedSize.getD 0 := by
        subst leafFound
        unfold leafSettled
        split
        · split <;> exact ⟨rfl, rfl, rfl⟩
        · exact ⟨rfl, rfl, rfl⟩
        · exact ⟨rfl, rfl, rfl⟩
      exact {
        unique := unique
        logical := by simp [rest.1, Snapshot.valueAt, at_, EntryObservation.logicalBytes]
        referenced := by simp [rest.2.1, Snapshot.valueAt, at_, EntryObservation.allocatedBytes,
          selfAllocated, fileAllocated]
        knownSubtotal := by simp [rest.2.2, Snapshot.valueAt, at_, EntryObservation.allocatedBytes,
          selfAllocated, fileAllocated] }

end Leaves

/-! ### Induction over the recurrence -/

/-- Reading a value off the entries of the children. -/
theorem map_childEntries {M : Type} {idx : ℕ} {read : CompactEntry → M} {value : ℕ → M}
    (holds : ∀ child ∈ s.tree.children idx,
      ∃ compact, entries[child]? = some compact ∧ read compact = value child) :
    (childEntries s entries idx).map read = (s.tree.children idx).map value :=
  map_filterMap_getElem? holds

/-- A property of leaves that passes from children to their directory holds of
every settled entry. -/
theorem Rolled.induction (rolled : Rolled builder s treeDelta leaves done entries)
    (leaves_length : leaves.length = s.entries.length)
    (split : s.tree.postorder 0 = done ++ rest) {P : ℕ → CompactEntry → Prop}
    (leafCase : ∀ (idx : ℕ) (leaf : CompactEntry), leaves[idx]? = some leaf →
      leaf.kind ≠ .directory → P idx leaf)
    (dirCase : ∀ (idx : ℕ) (leaf : CompactEntry), leaves[idx]? = some leaf →
      leaf.kind = .directory → 0 ≤ builder.netAt s treeDelta entries idx →
        (∀ child ∈ s.tree.children idx, ∃ compact, entries[child]? = some compact ∧
          P child compact) →
        P idx (leaf.rolledUp (builder.sumsAt s entries idx)
          (builder.netAt s treeDelta entries idx)))
    {idx : ℕ} {leaf : CompactEntry} (found : leaves[idx]? = some leaf)
    (settled : leaf.kind ≠ .directory ∨ idx ∈ done) :
    ∃ compact, entries[idx]? = some compact ∧ P idx compact := by
  induction idx using s.tree.childInduction generalizing leaf with
  | step idx ih =>
      by_cases directory : leaf.kind = .directory
      · have idxDone : idx ∈ done := settled.resolve_left (not_not_intro directory)
        rcases rolled.rolled idx leaf found directory idxDone with ⟨nonneg, stored⟩
        refine ⟨_, stored, dirCase idx leaf found directory nonneg ?_⟩
        intro child childMem
        have childInside := (mem_children.mp childMem).1
        have above : s.tree.IsAncestor idx child := by
          rw [← (mem_children.mp childMem).2.2]
          exact s.tree.isAncestor_parent child
        have childDone := mem_done_of_isAncestor split idxDone childInside above
        exact ih child childMem (List.getElem?_eq_getElem (leaves_length.symm ▸ childInside))
          (Or.inr childDone)
      · exact ⟨leaf, rolled.plain idx leaf found (Or.inl directory),
          leafCase idx leaf found directory⟩

/-! ### The values of a settled entry -/

/-- The reported sums of a settled entry. -/
structure SettledValues (s : Snapshot) (idx : ℕ) (compact : CompactEntry) : Prop where
  unique : compact.uniqueAllocatedBytes.toNat = s.uniqueAt idx % 2 ^ 64
  logical : (compact.logicalSize.getD 0).toNat = clip (s.logicalAt idx)
  referenced : compact.referencedAllocatedBytes.toNat = clip (s.referencedAt idx)
  knownSubtotal : compact.knownSubtotalAllocatedBytes.toNat = clip (s.referencedAt idx)
  shown : compact.kind = .directory →
    compact.logicalSize.isSome ∧ compact.allocatedSize = some compact.referencedAllocatedBytes

theorem sum_mod_eq (items : List ℕ) (value : ℕ → ℕ) (modulus : ℕ) :
    (items.map (fun item => ((value item % modulus : ℕ) : ℤ))).sum =
      (items.map (fun item => (value item : ℤ))).sum -
        modulus * ((items.map (fun item => value item / modulus)).sum : ℕ) := by
  induction items with
  | nil => simp
  | cons item items ih =>
      simp only [List.map_cons, List.sum_cons, ih]
      have split := Nat.div_add_mod (value item) modulus
      push_cast
      have cast : ((value item : ℕ) : ℤ) =
          (modulus : ℤ) * ((value item / modulus : ℕ) : ℤ) + ((value item % modulus : ℕ) : ℤ) := by
        exact_mod_cast split.symm
      push_cast at cast
      linarith

theorem selfAlloc_toNat (core : Core builder s.entries) (idx : ℕ) :
    ((builder.dirSelfAlloc[idx]?).getD 0).toNat = s.valueAt selfAllocated idx := by
  rw [core.selfAlloc_eq, List.getElem?_map, Snapshot.valueAt]
  cases s.entries[idx]? with
  | none => rfl
  | some entry => simp

/-- A settled leaf reports its own values. -/
theorem SettledValues.of_leaf (lvs : Leaves s entries objects leaves)
    (corrections : Corrections s entries objects treeDelta lastOccurrence) {idx : ℕ}
    {leaf : CompactEntry} (found : leaves[idx]? = some leaf) (plain : leaf.kind ≠ .directory) :
    SettledValues s idx leaf := by
  have inside := (List.getElem?_eq_some_iff.mp found).1
  rw [lvs.length_eq] at inside
  have at_ := List.getElem?_eq_getElem inside
  have childless : s.tree.children idx = [] :=
    s.children_eq_nil at_ (lvs.kind_eq at_ found ▸ plain)
  have values := lvs.values found plain
  have unique : (s.uniqueAt idx : ℤ) = s.ownBytes idx := by
    rw [uniqueAt_children lvs.table corrections.accounts inside, childless,
      corrections.accounts.delta_leaf idx inside childless]
    simp
  have logical : s.logicalAt idx = s.valueAt EntryObservation.logicalBytes idx := by
    simp [s.logicalAt_children inside, childless]
  have referenced : s.referencedAt idx = s.valueAt EntryObservation.allocatedBytes idx := by
    simp [s.referencedAt_children inside, childless]
  exact {
    unique := by
      have word := leaf.uniqueAllocatedBytes.toNat_lt
      rw [values.unique] at word ⊢
      rw [Nat.cast_injective unique, Nat.mod_eq_of_lt word]
    logical := by rw [logical, ← values.logical, clip_toNat]
    referenced := by rw [referenced, ← values.referenced, clip_toNat]
    knownSubtotal := by rw [referenced, ← values.knownSubtotal, clip_toNat]
    shown := fun directory => absurd directory plain }

/-- What phase 4 asserts about a directory, in exact terms. -/
theorem netAt_eq (core : Core builder s.entries) (lvs : Leaves s entries objects leaves)
    (corrections : Corrections s entries objects treeDelta lastOccurrence) {idx : ℕ}
    {entry : EntryObservation} (at_ : s.entries[idx]? = some entry)
    (directory : entry.kind = .directory)
    (settled : ∀ child ∈ s.tree.children idx, ∃ compact, final[child]? = some compact ∧
      SettledValues s child compact) :
    builder.netAt s treeDelta final idx = s.uniqueAt idx - 2 ^ 64 * s.lostAt idx := by
  have inside := (List.getElem?_eq_some_iff.mp at_).1
  have own : s.ownBytes idx = s.valueAt selfAllocated idx := by
    have unkeyed : objectKey s.entries idx = none := by
      rw [objectKey, at_]
      cases entry with
      | directory dir => rfl
      | file file => cases directory
      | special special => rfl
    rw [Snapshot.ownBytes, unkeyed, Option.elim_none]
  have sums : (builder.sumsAt s final idx).childUniqueSum =
      ((s.tree.children idx).map (fun child => ((s.uniqueAt child % 2 ^ 64 : ℕ) : ℤ))).sum := by
    rw [sumsAt, ChildSums.of_childUniqueSum, map_childEntries]
    intro child childMem
    rcases settled child childMem with ⟨compact, found, values⟩
    exact ⟨compact, found, by rw [values.unique]⟩
  have recurrence := uniqueAt_children lvs.table corrections.accounts inside
  rw [netAt, sums, sum_mod_eq, selfAlloc_toNat core, recurrence, own, Snapshot.lostAt]
  push_cast
  ring

/-- A directory settled from settled children reports the sums over its subtree. -/
theorem SettledValues.of_children (core : Core builder s.entries)
    (lvs : Leaves s entries objects leaves)
    (corrections : Corrections s entries objects treeDelta lastOccurrence) {idx : ℕ}
    {leaf : CompactEntry} (found : leaves[idx]? = some leaf) (directory : leaf.kind = .directory)
    (nonneg : 0 ≤ builder.netAt s treeDelta final idx)
    (settled : ∀ child ∈ s.tree.children idx, ∃ compact, final[child]? = some compact ∧
      SettledValues s child compact) :
    SettledValues s idx (leaf.rolledUp (builder.sumsAt s final idx)
      (builder.netAt s treeDelta final idx)) := by
  have inside := (List.getElem?_eq_some_iff.mp found).1
  rw [lvs.length_eq] at inside
  have at_ := List.getElem?_eq_getElem inside
  generalize s.entries[idx] = entry at at_
  have isDirectory : entry.kind = .directory := lvs.kind_eq at_ found ▸ directory
  have net := netAt_eq core lvs corrections at_ isDirectory settled
  have own := selfAlloc_toNat core idx
  have noBytes : s.valueAt EntryObservation.logicalBytes idx = 0 ∧
      s.valueAt EntryObservation.allocatedBytes idx = s.valueAt selfAllocated idx := by
    simp only [Snapshot.valueAt_of_found at_]
    cases entry with
    | directory dir => exact ⟨rfl, rfl⟩
    | file file => cases isDirectory
    | special special => exact ⟨rfl, rfl⟩
  -- the children's words are the clipped sums of their subtrees
  have clipped : ∀ (read : CompactEntry → UInt64) (value : ℕ → ℕ) (start : UInt64) (base : ℕ),
      (∀ child compact, SettledValues s child compact → (read compact).toNat = clip (value child)) →
        start.toNat = clip base →
          ((childEntries s final idx).foldl (fun sum child => saturatingAdd sum (read child))
            start).toNat = clip (base + ((s.tree.children idx).map value).sum) := by
    intro read value start base reads startEq
    have words : (childEntries s final idx).map read =
        (s.tree.children idx).map (fun child => UInt64.ofNat (clip (value child))) := by
      apply map_childEntries
      intro child childMem
      rcases settled child childMem with ⟨compact, childFound, values⟩
      refine ⟨compact, childFound, ?_⟩
      rw [← reads child compact values, UInt64.ofNat_toNat]
    rw [← List.foldl_map (f := read) (g := saturatingAdd), words,
      List.foldl_map (g := saturatingAdd)]
    apply toNat_foldl_saturatingAdd
    · intro child _
      exact UInt64.toNat_ofNat_of_lt' (clip_lt _)
    · exact startEq
  have ownClip : ((builder.dirSelfAlloc[idx]?).getD 0).toNat =
      clip (s.valueAt selfAllocated idx) := by
    rw [← own, clip_toNat]
  have referenced : s.referencedAt idx =
      s.valueAt selfAllocated idx + ((s.tree.children idx).map s.referencedAt).sum := by
    rw [s.referencedAt_children inside, noBytes.2, Nat.add_comm]
  exact {
    unique := by
      have lost : (2 ^ 64 * s.lostAt idx : ℕ) ≤ s.uniqueAt idx := by
        rw [net] at nonneg
        omega
      simp only [CompactEntry.rolledUp, UInt64.toNat_ofNat', net]
      have netNat : ((s.uniqueAt idx : ℤ) - 2 ^ 64 * (s.lostAt idx : ℤ)).toNat =
          s.uniqueAt idx - 2 ^ 64 * s.lostAt idx := by omega
      rw [netNat]
      omega
    logical := by
      have total := clipped (fun compact => compact.logicalSize.getD 0) s.logicalAt 0 0
        (fun child compact values => values.logical) rfl
      rw [Nat.zero_add] at total
      rw [s.logicalAt_children inside, noBytes.1, Nat.add_zero]
      simp only [CompactEntry.rolledUp, Option.getD_some, sumsAt, ChildSums.of,
        ChildSums.foldl_sumLogical]
      exact total
    referenced := by
      rw [referenced]
      simp only [CompactEntry.rolledUp, sumsAt, ChildSums.of, ChildSums.foldl_sumReferenced]
      exact clipped _ _ _ _ (fun child compact values => values.referenced) ownClip
    knownSubtotal := by
      rw [referenced]
      simp only [CompactEntry.rolledUp, sumsAt, ChildSums.of, ChildSums.foldl_sumKnownSubtotal]
      exact clipped _ _ _ _ (fun child compact values => values.knownSubtotal) ownClip
    shown := fun _ => ⟨rfl, rfl⟩ }

/-! ### Phase 4 as a whole -/

/-- Every entry is settled, and otherwise as phase 1 left it. -/
structure Settled (s : Snapshot) (entries final : List CompactEntry) : Prop where
  length_eq : final.length = s.entries.length
  settled : ∀ (idx : ℕ) (tagged : CompactEntry), entries[idx]? = some tagged →
    ∃ compact, final[idx]? = some compact ∧ compact.fixed = tagged.fixed ∧
      SettledValues s idx compact

/-- No directory has fewer unique bytes than its children have lost. -/
def Affordable (s : Snapshot) : Prop :=
  ∀ (idx : ℕ) (entry : EntryObservation), s.entries[idx]? = some entry →
    entry.kind = .directory → 2 ^ 64 * s.lostAt idx ≤ s.uniqueAt idx

section Rollup

variable (core : Core builder s.entries) (lvs : Leaves s entries objects leaves)
  (corrections : Corrections s entries objects treeDelta lastOccurrence)

include core lvs corrections

theorem Rolled.values (rolled : Rolled builder s treeDelta leaves done final)
    (split : s.tree.postorder 0 = done ++ rest) {idx : ℕ} {leaf : CompactEntry}
    (found : leaves[idx]? = some leaf) (settled : leaf.kind ≠ .directory ∨ idx ∈ done) :
    ∃ compact, final[idx]? = some compact ∧ SettledValues s idx compact := by
  refine rolled.induction lvs.length_eq split ?_ ?_ found settled
  · intro idx leaf found plain
    exact SettledValues.of_leaf lvs corrections found plain
  · intro idx leaf found directory nonneg children
    exact SettledValues.of_children core lvs corrections found directory nonneg children

/-- At the next directory of the postorder all children are settled. -/
theorem Rolled.next_netAt (rolled : Rolled builder s treeDelta leaves done final) {idx : ℕ}
    (split : s.tree.postorder 0 = done ++ idx :: rest) {entry : EntryObservation}
    (at_ : s.entries[idx]? = some entry) (directory : entry.kind = .directory) :
    builder.netAt s treeDelta final idx = s.uniqueAt idx - 2 ^ 64 * s.lostAt idx := by
  apply netAt_eq core lvs corrections at_ directory
  intro child childMem
  have inside := (List.getElem?_eq_some_iff.mp at_).1
  have childDone := mem_done_of_mem_children (by simpa using Nat.zero_lt_of_lt inside) split childMem
  have childInside := (mem_children.mp childMem).1
  exact rolled.values core lvs corrections split
    (List.getElem?_eq_getElem (lvs.length_eq.symm ▸ childInside)) (Or.inr childDone)

theorem Rolled.settled (positive : 0 < s.entries.length)
    (rolled : Rolled builder s treeDelta leaves (s.tree.postorder 0) final) :
    Settled s entries final where
  length_eq := rolled.length_eq
  settled := by
    intro idx tagged stored
    have inside := (List.getElem?_eq_some_iff.mp stored).1
    rw [lvs.table.tagged.length_eq] at inside
    have found := lvs.settled idx tagged stored
    have mem : idx ∈ s.tree.postorder 0 :=
      (mem_postorder positive).mpr ⟨inside, s.tree.isAncestor_zero idx⟩
    have all : s.tree.postorder 0 = s.tree.postorder 0 ++ [] := (List.append_nil _).symm
    rcases rolled.values core lvs corrections all found (Or.inr mem) with
      ⟨compact, stands, values⟩
    refine ⟨compact, stands, ?_, values⟩
    have kept : (leafSettled objects tagged).fixed = tagged.fixed := leafSettled_fixed tagged
    by_cases directory : (leafSettled objects tagged).kind = .directory
    · have stored := (rolled.rolled idx _ found directory mem).2
      rw [stands, Option.some.injEq] at stored
      rw [stored, CompactEntry.rolledUp_fixed, kept]
    · have stored := rolled.plain idx _ found (Or.inl directory)
      rw [stands, Option.some.injEq] at stored
      rw [stored, kept]

/-- Phase 4 returns exactly when every directory can afford its children's
losses, and then every entry is settled. -/
theorem rollup_spec (small : s.entries.length < 2 ^ 32) (positive : 0 < s.entries.length) :
    (Affordable s → ∃ final,
      (s.tree.postorder 0).foldlM (builder.aggregateDirectory treeDelta) leaves = .ok final) ∧
    ∀ final, (s.tree.postorder 0).foldlM (builder.aggregateDirectory treeDelta) leaves = .ok final →
      Affordable s ∧ Settled s entries final := by
  have bounds := corrections.bounds small positive
  constructor
  · intro affordable
    rcases rollup_ok core small corrections.length_eq bounds positive lvs.length_eq (by
      intro done idx rest state leaf split rolled found directory
      have inside := (List.getElem?_eq_some_iff.mp found).1
      rw [lvs.length_eq] at inside
      have at_ := List.getElem?_eq_getElem inside
      have isDirectory := lvs.kind_eq at_ found ▸ directory
      rw [rolled.next_netAt core lvs corrections split at_ isDirectory]
      have enough := affordable idx _ at_ isDirectory
      omega) with ⟨final, ran, _⟩
    exact ⟨final, ran⟩
  · intro final ran
    have rolled := rollup_invariant core small corrections.length_eq bounds positive lvs.length_eq ran
    refine ⟨?_, rolled.settled core lvs corrections positive⟩
    intro idx entry at_ directory
    have inside := (List.getElem?_eq_some_iff.mp at_).1
    rcases lvs.found at_ with ⟨objectIndex, known, _, found⟩
    have mem : idx ∈ s.tree.postorder 0 :=
      (mem_postorder positive).mpr ⟨inside, s.tree.isAncestor_zero idx⟩
    have leafDirectory := (lvs.kind_eq at_ found).trans directory
    have nonneg := (rolled.rolled idx _ found leafDirectory mem).1
    have all : s.tree.postorder 0 = s.tree.postorder 0 ++ [] := (List.append_nil _).symm
    rw [netAt_eq core lvs corrections at_ directory] at nonneg
    · omega
    · intro child childMem
      have childInside := (mem_children.mp childMem).1
      exact rolled.values core lvs corrections all
        (List.getElem?_eq_getElem (lvs.length_eq.symm ▸ childInside))
        (Or.inr ((mem_postorder positive).mpr ⟨childInside, s.tree.isAncestor_zero child⟩))

end Rollup

end GraphBuilder

end PigTree
