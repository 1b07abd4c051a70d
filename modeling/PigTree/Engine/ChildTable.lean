import PigTree.Engine.Settlement
import PigTree.Foundation.Slices
import Mathlib.Data.Prod.Lex

/-!
# Phase 5: the sorted child table

The comparison of the code is the lexicographic order of a key. Every directory
gets one slice of the flat child list: a permutation of its children in the
order of their keys. The slices follow each other in the order of the entries.
-/

namespace PigTree

open Foundation ParentTree EntryObservation

/-- An entry with its child slice. -/
def CompactEntry.withSlice (compact : CompactEntry) (start count : UInt32) : CompactEntry :=
  { compact with childStart := start, childCount := count }

@[simp]
theorem CompactEntry.withSlice_kind (compact : CompactEntry) (start count : UInt32) :
    (compact.withSlice start count).kind = compact.kind := rfl

/-! ### The order of the children -/

/-- The criteria of the comparison, the first that differs decides. -/
abbrev ChildKey : Type := Bool ×ₗ ℕᵒᵈ ×ₗ String ×ₗ String ×ₗ ℕ

/-- Directories first, larger logical size first, then lowercase name, name and identifier. -/
def childKey (rt : Runtime) (child : CompactEntry) : ChildKey :=
  toLex (decide (child.kind ≠ .directory),
    toLex (OrderDual.toDual (child.logicalSize.getD 0).toNat,
      toLex (rt.toLowercase child.name, toLex (child.name, child.id.toNat))))

/-- One criterion of a lexicographic comparison, followed by the others. -/
theorem criterion_ne_gt_iff {α β : Type} [DecidableEq α] [LinearOrder β] (key : α → β)
    (injective : Function.Injective key) {left right : α} {first others : Ordering} {rest : Prop}
    (firstIff : first ≠ .gt ↔ key left ≤ key right) (restIff : others ≠ .gt ↔ rest) :
    (if left ≠ right then first else others) ≠ .gt ↔
      key left < key right ∨ key left = key right ∧ rest := by
  by_cases same : left = right
  · subst same
    simp [restIff]
  · have apart : key left ≠ key right := injective.ne same
    rw [if_pos same, firstIff, lt_iff_le_and_ne]
    simp [apart]

theorem compare_word64_ne_gt_iff {left right : UInt64} :
    compare left right ≠ .gt ↔ left.toNat ≤ right.toNat :=
  Ordering.ne_gt_iff_isLE.trans (Std.isLE_compare.trans UInt64.le_iff_toNat_le)

theorem compare_word32_ne_gt_iff {left right : UInt32} :
    compare left right ≠ .gt ↔ left.toNat ≤ right.toNat :=
  Ordering.ne_gt_iff_isLE.trans (Std.isLE_compare.trans UInt32.le_iff_toNat_le)

namespace GraphBuilder

/-- The comparison of the code orders entries by their keys. -/
theorem compareChildren_ne_gt_iff (rt : Runtime) (left right : CompactEntry) :
    compareChildren rt (left.id, left) (right.id, right) ≠ .gt ↔
      childKey rt left ≤ childKey rt right := by
  have kinds : compare (decide (right.kind = .directory)) (decide (left.kind = .directory)) ≠ .gt ↔
      (!decide (left.kind = .directory)) ≤ (!decide (right.kind = .directory)) := by
    cases decide (left.kind = .directory) <;> cases decide (right.kind = .directory) <;> decide
  have sizes : compare (right.logicalSize.getD 0) (left.logicalSize.getD 0) ≠ .gt ↔
      OrderDual.toDual (left.logicalSize.getD 0).toNat ≤
        OrderDual.toDual (right.logicalSize.getD 0).toNat := by
    rw [compare_word64_ne_gt_iff, OrderDual.toDual_le_toDual]
  have lowered : compare (rt.toLowercase left.name) (rt.toLowercase right.name) ≠ .gt ↔
      rt.toLowercase left.name ≤ rt.toLowercase right.name := compare_le_iff_le
  have names : compare left.name right.name ≠ .gt ↔ left.name ≤ right.name := compare_le_iff_le
  have ids : compare left.id right.id ≠ .gt ↔ left.id.toNat ≤ right.id.toNat :=
    compare_word32_ne_gt_iff
  have criteria := criterion_ne_gt_iff Bool.not Bool.not_injective kinds
    (criterion_ne_gt_iff (fun word : UInt64 => OrderDual.toDual word.toNat)
      (fun _ _ same => UInt64.toNat_inj.mp same) sizes
      (criterion_ne_gt_iff id Function.injective_id lowered
        (criterion_ne_gt_iff id Function.injective_id names
          ids)))
  unfold compareChildren
  simp only [childKey, Prod.Lex.toLex_le_toLex, decide_not]
  exact criteria

/-- The entry with identifier `earlier` goes before the one with identifier `later`. -/
def Before (rt : Runtime) (entries : List CompactEntry) (earlier later : UInt32) : Prop :=
  ∃ left ∈ entries, ∃ right ∈ entries, left.id = earlier ∧ right.id = later ∧
    childKey rt left < childKey rt right

theorem sortChildren_perm (rt : Runtime) (children : List (UInt32 × CompactEntry)) :
    (sortChildren rt children).Perm children :=
  List.perm_insertionSort _ children

/-- Children with distinct identifiers are sorted strictly. -/
theorem sortChildren_before (rt : Runtime) {children entries : List CompactEntry}
    (subset : children ⊆ entries) (nodup : (children.map CompactEntry.id).Nodup) :
    ((sortChildren rt (children.map (fun child => (child.id, child)))).map Prod.fst).Pairwise
      (Before rt entries) := by
  have named : ∀ row ∈ children.map (fun child => (child.id, child)),
      row.1 = row.2.id ∧ row.2 ∈ children := by
    intro row rowMem
    rcases List.mem_map.mp rowMem with ⟨child, childMem, rfl⟩
    exact ⟨rfl, childMem⟩
  -- the sort of the code is the sort by keys, which is a linear order
  have byKey : sortChildren rt (children.map (fun child => (child.id, child))) =
      (children.insertionSort (fun left right => childKey rt left ≤ childKey rt right)).map
        (fun child => (child.id, child)) := by
    symm
    apply List.map_insertionSort
    intro left _ right _
    exact (compareChildren_ne_gt_iff rt left right).symm
  have total : Std.Total (fun left right : CompactEntry => childKey rt left ≤ childKey rt right) :=
    ⟨fun left right => le_total _ _⟩
  have transitive : IsTrans CompactEntry
      (fun left right => childKey rt left ≤ childKey rt right) := ⟨fun _ _ _ => le_trans⟩
  have sorted := List.pairwise_insertionSort
    (fun left right : CompactEntry => childKey rt left ≤ childKey rt right) children
  have perm := List.perm_insertionSort
    (fun left right : CompactEntry => childKey rt left ≤ childKey rt right) children
  have distinct := (perm.map CompactEntry.id).nodup_iff.mpr nodup
  rw [byKey, List.map_map, List.pairwise_map]
  rw [List.Nodup, List.pairwise_map] at distinct
  refine (sorted.and distinct).imp_of_mem ?_
  rintro left right leftMem rightMem ⟨ordered, different⟩
  refine ⟨left, subset (perm.mem_iff.mp leftMem), right, subset (perm.mem_iff.mp rightMem), rfl,
    rfl, lt_of_le_of_ne ordered ?_⟩
  intro same
  have ids : left.id.toNat = right.id.toNat := by
    simp only [childKey, EmbeddingLike.apply_eq_iff_eq, Prod.mk.injEq] at same
    exact same.2.2.2.2
  exact different (UInt32.toNat_inj.mp ids)

/-! ### One slice -/

variable {rt : Runtime} {builder : GraphBuilder} {s : Snapshot}
  {settled entries : List CompactEntry} {idx : ℕ}

/-- The entries carry the identifiers of the snapshot. -/
structure Named (s : Snapshot) (entries : List CompactEntry) : Prop where
  length_eq : entries.length = s.entries.length
  named : ∀ (idx : ℕ) (compact : CompactEntry), entries[idx]? = some compact →
    ∃ entry, s.entries[idx]? = some entry ∧ compact.id = entry.entryId ∧
      compact.kind = entry.kind

theorem Named.found (names : Named s entries) (inside : idx < s.entries.length) :
    ∃ compact, entries[idx]? = some compact ∧ compact.id = s.valueAt entryId idx := by
  have stored := List.getElem?_eq_getElem (names.length_eq.symm ▸ inside)
  rcases names.named idx _ stored with ⟨entry, found, named, _⟩
  exact ⟨_, stored, by rw [named, Snapshot.valueAt_of_found found]⟩

/-- The identifiers of the children of a position, in order of arrival. -/
def childIdsAt (s : Snapshot) (idx : ℕ) : List UInt32 :=
  (s.tree.children idx).map (s.valueAt entryId)

theorem Named.map_id (names : Named s entries) (idx : ℕ) :
    (childEntries s entries idx).map CompactEntry.id = childIdsAt s idx := by
  apply map_childEntries
  intro child childMem
  exact names.found (mem_children.mp childMem).1

theorem nodup_childIdsAt (s : Snapshot) (idx : ℕ) : (childIdsAt s idx).Nodup := by
  apply List.Nodup.map_on _ (s.tree.nodup_children idx)
  intro left leftMem right rightMem same
  have leftFound := List.getElem?_eq_getElem (mem_children.mp leftMem).1
  have rightFound := List.getElem?_eq_getElem (mem_children.mp rightMem).1
  rw [Snapshot.valueAt_of_found leftFound, Snapshot.valueAt_of_found rightFound] at same
  rw [← s.wellFormed.indexOf_eq leftFound, same, s.wellFormed.indexOf_eq rightFound]

/-- One pass of the collecting loop, without the step to the next sibling. -/
def addChildId (entries : List CompactEntry) (ids : List UInt32) (child : ℕ) :
    Checked (List UInt32) := do
  let compact ← getAt entries child
  return ids ++ [compact.id]

theorem addChildId_fold {children : List ℕ} (inside : ∀ child ∈ children, child < entries.length) :
    children.foldlM (addChildId entries) [] =
      .ok ((children.filterMap (fun child => entries[child]?)).map CompactEntry.id) := by
  have loop : ∃ ids, children.foldlM (addChildId entries) [] = .ok ids ∧
      ids = (children.filterMap (fun child => entries[child]?)).map CompactEntry.id := by
    refine foldlM_ok children (fun seen ids =>
      ids = (seen.filterMap (fun child => entries[child]?)).map CompactEntry.id) rfl ?_
    rintro seen child rest ids split rfl
    have found := List.getElem?_eq_getElem (inside child (by simp [split]))
    refine ⟨_, by rw [addChildId, getAt_of_getElem? found, Checked.ok_bind, Checked.pure_eq_ok], ?_⟩
    rw [List.filterMap_append, List.filterMap_cons_some found, List.filterMap_nil, List.map_append]
    rfl
  rcases loop with ⟨ids, ran, rfl⟩
  exact ran

/-- The walk along the siblings collects the children's identifiers. -/
theorem collectChildIds_ok (core : Core builder s.entries) (small : s.entries.length < 2 ^ 32)
    (names : Named s entries) (inside : idx < s.entries.length) :
    builder.collectChildIds entries idx =
      .ok ((childEntries s entries idx).map CompactEntry.id) := by
  rcases core.chain_children small inside with ⟨first, firstFound, chain⟩
  have few : (s.tree.children idx).length < entries.length + 1 := by
    have short : (kids (parentIndex s.entries) s.entries.length idx).length ≤ s.entries.length :=
      length_kids_le
    rw [names.length_eq]
    exact Nat.lt_succ_of_le short
  have loop : whileSome (builder.collectChildStep entries) (entries.length + 1) ([], first) =
      (s.tree.children idx).foldlM (addChildId entries) [] >>= fun ids => .ok (ids, u32Max) := by
    refine chain.whileSome_eq ?_ ?_ few _
    · intro ids
      simp [collectChildStep]
    · intro ids cursor after running link
      simp only [collectChildStep, if_neg running, addChildId, getAt_of_getElem? link]
      cases getAt entries cursor.toNat <;> rfl
  rw [addChildId_fold, Checked.ok_bind] at loop
  · rw [collectChildIds, getAt_of_getElem? firstFound, Checked.ok_bind, loop, Checked.ok_bind]
    rfl
  · intro child childMem
    rw [names.length_eq]
    exact (mem_children.mp childMem).1

/-- The lookups by identifier find the children's entries. -/
theorem lookupChildren_ok (core : Core builder s.entries) (names : Named s entries)
    {children : List CompactEntry} (stored : ∀ child ∈ children, child ∈ entries) :
    builder.lookupChildren entries (children.map CompactEntry.id) =
      .ok (children.map (fun child => (child.id, child))) := by
  suffices looked : ∀ found, (children.map CompactEntry.id).foldlM (fun found id => do
      let eIdx ← builder.entryIndex id
      let entry ← getAt entries eIdx
      return found ++ [(id, entry)]) found =
        .ok (found ++ children.map (fun child => (child.id, child))) from looked []
  induction children with
  | nil => simp
  | cons child children ih =>
      intro found
      rcases List.mem_iff_getElem?.mp (stored child List.mem_cons_self) with ⟨position, storedAt⟩
      rcases names.named position child storedAt with ⟨entry, entryFound, named, _⟩
      have indexed : builder.entryIndex child.id = .ok position :=
        named ▸ core.entryIndex_eq entryFound
      rw [List.map_cons, List.foldlM_cons, indexed, Checked.ok_bind, getAt_of_getElem? storedAt,
        Checked.ok_bind, Checked.pure_eq_ok, Checked.ok_bind,
        ih (fun other mem => stored other (List.mem_cons_of_mem _ mem))]
      simp

/-- The children of a position in the order of the table. -/
structure IsSlice (rt : Runtime) (s : Snapshot) (settled : List CompactEntry) (idx : ℕ)
    (slice : List UInt32) : Prop where
  perm : slice.Perm (childIdsAt s idx)
  sorted : slice.Pairwise (Before rt settled)

/-- Entries whose child slices have been set, some of them. -/
structure Placed (settled entries : List CompactEntry) : Prop where
  length_eq : entries.length = settled.length
  placed : ∀ (idx : ℕ) (compact : CompactEntry), settled[idx]? = some compact →
    ∃ start count, entries[idx]? = some (compact.withSlice start count)

theorem Placed.origin (placed : Placed settled entries) {compact : CompactEntry}
    (stored : entries[idx]? = some compact) :
    ∃ original start count, settled[idx]? = some original ∧
      compact = original.withSlice start count := by
  have inside := (List.getElem?_eq_some_iff.mp stored).1
  rw [placed.length_eq] at inside
  have found := List.getElem?_eq_getElem inside
  rcases placed.placed idx _ found with ⟨start, count, same⟩
  rw [stored, Option.some.injEq] at same
  exact ⟨_, start, count, found, same⟩

theorem Placed.names (placed : Placed settled entries) (names : Named s settled) :
    Named s entries where
  length_eq := placed.length_eq.trans names.length_eq
  named := by
    intro idx compact stored
    rcases placed.origin stored with ⟨original, start, count, found, rfl⟩
    exact names.named idx original found

/-- Child slices are no criterion of the order. -/
theorem Placed.before_iff (placed : Placed settled entries) {earlier later : UInt32} :
    Before rt entries earlier later ↔ Before rt settled earlier later := by
  constructor
  · rintro ⟨left, leftMem, right, rightMem, leftId, rightId, ordered⟩
    rcases List.mem_iff_getElem?.mp leftMem with ⟨leftIdx, leftStored⟩
    rcases List.mem_iff_getElem?.mp rightMem with ⟨rightIdx, rightStored⟩
    rcases placed.origin leftStored with ⟨leftOriginal, _, _, leftFound, rfl⟩
    rcases placed.origin rightStored with ⟨rightOriginal, _, _, rightFound, rfl⟩
    exact ⟨leftOriginal, List.mem_of_getElem? leftFound, rightOriginal,
      List.mem_of_getElem? rightFound, leftId, rightId, ordered⟩
  · rintro ⟨left, leftMem, right, rightMem, leftId, rightId, ordered⟩
    rcases List.mem_iff_getElem?.mp leftMem with ⟨leftIdx, leftFound⟩
    rcases List.mem_iff_getElem?.mp rightMem with ⟨rightIdx, rightFound⟩
    rcases placed.placed leftIdx left leftFound with ⟨_, _, leftStored⟩
    rcases placed.placed rightIdx right rightFound with ⟨_, _, rightStored⟩
    exact ⟨_, List.mem_of_getElem? leftStored, _, List.mem_of_getElem? rightStored, leftId,
      rightId, ordered⟩

/-- Setting one more child slice. -/
theorem Placed.set (placed : Placed settled entries) {compact : CompactEntry}
    (found : settled[idx]? = some compact) (start count : UInt32) :
    Placed settled (entries.set idx (compact.withSlice start count)) where
  length_eq := by simpa using placed.length_eq
  placed := by
    intro other otherCompact otherFound
    by_cases same : idx = other
    · subst same
      rw [found, Option.some.injEq] at otherFound
      subst otherFound
      have inside := (List.getElem?_eq_some_iff.mp found).1
      exact ⟨start, count, List.getElem?_set_self (placed.length_eq.symm ▸ inside)⟩
    · rw [List.getElem?_set_ne same]
      exact placed.placed other otherCompact otherFound

/-- The start a table entry records: only directories have one. -/
def startWord (compact : CompactEntry) (position : ℕ) : UInt32 :=
  if compact.kind = .directory then UInt32.ofNat position else 0

/-- One pass of the loop appends one slice and records it in its entry. -/
theorem layOutChildren_ok (rt : Runtime) (core : Core builder s.entries)
    (small : s.entries.length < 2 ^ 32) (names : Named s settled) {table : ChildTable}
    (placed : Placed settled table.entries) {compact : CompactEntry}
    (found : settled[idx]? = some compact) :
    ∃ slice, IsSlice rt s settled idx slice ∧
      builder.layOutChildren rt table idx = .ok {
        entries := table.entries.set idx (compact.withSlice
          (startWord compact table.allChildren.length) (UInt32.ofNat slice.length))
        allChildren := table.allChildren ++ slice } := by
  rcases placed.placed idx compact found with ⟨start, count, stored⟩
  have inside := (List.getElem?_eq_some_iff.mp stored).1
  have namesNow := placed.names names
  have bound : idx < s.entries.length := namesNow.length_eq ▸ inside
  rw [layOutChildren, getAt_of_getElem? stored, Checked.ok_bind]
  by_cases directory : compact.kind = .directory
  · have children := collectChildIds_ok core small namesNow bound
    have subset : childEntries s table.entries idx ⊆ table.entries := by
      intro child childMem
      rcases List.mem_filterMap.mp childMem with ⟨position, _, childStored⟩
      exact List.mem_of_getElem? childStored
    have looked := lookupChildren_ok core namesNow (fun child mem => subset mem)
    have distinct : ((childEntries s table.entries idx).map CompactEntry.id).Nodup := by
      rw [namesNow.map_id]
      exact nodup_childIdsAt s idx
    have permuted := (sortChildren_perm rt ((childEntries s table.entries idx).map
      (fun child => (child.id, child)))).map Prod.fst
    rw [List.map_map] at permuted
    refine ⟨_, ⟨(namesNow.map_id idx) ▸ permuted, ?_⟩, ?_⟩
    · exact (sortChildren_before rt subset distinct).imp
        (fun ordered => placed.before_iff.mp ordered)
    · rw [CompactEntry.withSlice_kind, if_pos directory, children, Checked.ok_bind, looked,
        Checked.ok_bind]
      simp only [setAt_of_lt inside, Checked.ok_bind, startWord, if_pos directory]
      rfl
  · rcases names.named idx compact found with ⟨entry, at_, _, sameKind⟩
    have childless := s.children_eq_nil at_ (sameKind ▸ directory)
    refine ⟨[], ⟨by simp [childIdsAt, childless], List.Pairwise.nil⟩, ?_⟩
    rw [CompactEntry.withSlice_kind, if_neg directory, setAt_of_lt inside, Checked.ok_bind,
      startWord, if_neg directory, List.append_nil]
    rfl

/-! ### The whole table -/

/-- The table after some entries: one slice for each of them, in their order. -/
structure LaidOut (rt : Runtime) (s : Snapshot) (settled : List CompactEntry)
    (slices : List (List UInt32)) (table : ChildTable) : Prop where
  allChildren_eq : table.allChildren = slices.flatten
  placed : Placed settled table.entries
  isSlice : ∀ (idx : ℕ) (slice : List UInt32), slices[idx]? = some slice → IsSlice rt s settled idx slice
  recorded : ∀ (idx : ℕ) (compact : CompactEntry) (slice : List UInt32),
    settled[idx]? = some compact → slices[idx]? = some slice →
      table.entries[idx]? = some (compact.withSlice
        (startWord compact (sliceStart slices idx)) (UInt32.ofNat slice.length))

theorem LaidOut.start : LaidOut rt s settled [] { entries := settled, allChildren := [] } where
  allChildren_eq := rfl
  placed :=
    { length_eq := rfl
      placed := fun _ compact found => ⟨compact.childStart, compact.childCount, found⟩ }
  isSlice := by simp
  recorded := by simp

theorem LaidOut.push {slices : List (List UInt32)} {table : ChildTable}
    (laidOut : LaidOut rt s settled slices table) {compact : CompactEntry}
    (found : settled[slices.length]? = some compact) {slice : List UInt32}
    (isSlice : IsSlice rt s settled slices.length slice) :
    LaidOut rt s settled (slices ++ [slice]) {
      entries := table.entries.set slices.length (compact.withSlice
        (startWord compact table.allChildren.length) (UInt32.ofNat slice.length))
      allChildren := table.allChildren ++ slice } where
  allChildren_eq := by simp [laidOut.allChildren_eq]
  placed := laidOut.placed.set found _ _
  isSlice := by
    intro idx other otherFound
    rcases Nat.lt_trichotomy idx slices.length with before | rfl | after
    · rw [List.getElem?_append_left before] at otherFound
      exact laidOut.isSlice idx other otherFound
    · rw [List.getElem?_concat_length, Option.some.injEq] at otherFound
      exact otherFound ▸ isSlice
    · rw [List.getElem?_eq_none (by simpa using after)] at otherFound
      cases otherFound
  recorded := by
    intro idx other otherSlice otherFound sliceFound
    rcases Nat.lt_trichotomy idx slices.length with before | rfl | after
    · rw [List.getElem?_append_left before] at sliceFound
      rw [List.getElem?_set_ne before.ne', sliceStart_append _ before.le]
      exact laidOut.recorded idx other otherSlice otherFound sliceFound
    · rw [List.getElem?_concat_length, Option.some.injEq] at sliceFound
      rw [found, Option.some.injEq] at otherFound
      subst sliceFound
      subst otherFound
      have inside := (List.getElem?_eq_some_iff.mp found).1
      rw [List.getElem?_set_self (laidOut.placed.length_eq.symm ▸ inside),
        sliceStart_append _ le_rfl, sliceStart_length, laidOut.allChildren_eq]
    · rw [List.getElem?_eq_none (by simpa using after)] at sliceFound
      cases sliceFound

/-- Phase 5 never aborts and lays out one slice for every entry. -/
theorem layOut_ok (rt : Runtime) (core : Core builder s.entries)
    (small : s.entries.length < 2 ^ 32) (names : Named s settled) :
    ∃ table slices, (List.range settled.length).foldlM (builder.layOutChildren rt)
        { entries := settled, allChildren := [] } = .ok table ∧
      slices.length = settled.length ∧ LaidOut rt s settled slices table := by
  rcases foldlM_ok (List.range settled.length)
    (fun seen table => ∃ slices : List (List UInt32), slices.length = seen.length ∧
      LaidOut rt s settled slices table) ⟨[], rfl, LaidOut.start⟩ (by
      rintro seen idx rest table split ⟨slices, counted, laidOut⟩
      have next : idx = seen.length := by
        have named := congrArg (fun items => items[seen.length]?) split
        have inside : seen.length < settled.length := by
          have total := congrArg List.length split
          simp only [List.length_range, List.length_append, List.length_cons] at total
          omega
        simpa [inside] using named.symm
      have inside : idx < settled.length := by
        have mem : idx ∈ List.range settled.length := by simp [split]
        exact List.mem_range.mp mem
      have found := List.getElem?_eq_getElem inside
      rcases layOutChildren_ok rt core small names laidOut.placed found with
        ⟨slice, isSlice, ran⟩
      have position : idx = slices.length := next.trans counted.symm
      subst position
      exact ⟨_, ran, slices ++ [slice], by simp [counted], laidOut.push found isSlice⟩) with
    ⟨table, ran, slices, counted, laidOut⟩
  exact ⟨table, slices, ran, by simpa using counted, laidOut⟩

end GraphBuilder

end PigTree
