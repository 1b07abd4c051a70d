import PigTree.Foundation.SiblingChain
import PigTree.Engine.Builder
import PigTree.Engine.Snapshot

/-!
# The builder represents the accepted records

An invariant of the builder in terms of the records it has accepted: its entry
vector lists them, its identifier lookup finds them, its child links thread the
tree they form, and its maps and totals summarise them. Every accepted record
extends it, and a rejected record changes nothing it speaks about.
-/

namespace PigTree

open Foundation EntryObservation

/-- The entry the builder stores for an observation. -/
def EntryObservation.compact : EntryObservation → CompactEntry
  | .directory seen => GraphBuilder.directoryEntry seen
  | .file seen => GraphBuilder.fileEntry seen
  | .special seen => GraphBuilder.specialEntry seen

/-- The self allocation the builder stores for an observation. -/
def EntryObservation.selfAlloc : EntryObservation → UInt64
  | .directory seen => seen.allocatedSize.getD 0
  | .file _ => 0
  | .special _ => 0

namespace EntryObservation

variable (entry : EntryObservation)

@[simp]
theorem compact_id : entry.compact.id = entry.entryId := by
  cases entry <;> rfl

@[simp]
theorem compact_parentId : entry.compact.parentId = entry.parentId := by
  cases entry <;> rfl

@[simp]
theorem compact_name : entry.compact.name = entry.name := by
  cases entry <;> rfl

@[simp]
theorem compact_kind : entry.compact.kind = entry.kind := by
  cases entry <;> rfl

@[simp]
theorem compact_objectIndex : entry.compact.objectIndex = noObject := by
  cases entry <;> rfl

@[simp]
theorem toNat_selfAlloc : entry.selfAlloc.toNat = entry.selfAllocated := by
  cases entry <;> rfl

end EntryObservation

/-! ### Identifiers and positions -/

/-- The map holds the position of every entry under its identifier, and nothing else. -/
def Locates (entries : List EntryObservation) (idToIdx : IdMap) : Prop :=
  ∀ id idx, idToIdx.lookup id = some idx ↔
    ∃ entry, entries[idx.toNat]? = some entry ∧ entry.entryId = id

namespace Locates

variable {entries : List EntryObservation} {idToIdx : IdMap} {entry : EntryObservation}

theorem nil : Locates [] ∅ := by
  intro id idx
  simp

theorem push (locates : Locates entries idToIdx)
    (fresh : entry.entryId ∉ entries.map entryId) (room : entries.length < 2 ^ 32) :
    Locates (entries ++ [entry])
      (idToIdx.insert entry.entryId (UInt32.ofNat entries.length)) := by
  have wrapped : (UInt32.ofNat entries.length).toNat = entries.length :=
    UInt32.toNat_ofNat_of_lt' room
  intro id idx
  by_cases same : id = entry.entryId
  · subst same
    rw [AList.lookup_insert]
    constructor
    · rintro ⟨rfl⟩
      exact ⟨entry, by simp [wrapped], rfl⟩
    · rintro ⟨other, found, named⟩
      have atEnd : idx.toNat = entries.length := by
        by_contra different
        have bound := (List.getElem?_eq_some_iff.mp found).1
        rw [List.length_append, List.length_singleton] at bound
        rw [List.getElem?_append_left (by omega)] at found
        exact fresh (List.mem_map.mpr ⟨other, List.mem_of_getElem? found, named⟩)
      rw [← atEnd, UInt32.ofNat_toNat]
  · rw [AList.lookup_insert_ne same, locates id idx]
    constructor
    · rintro ⟨other, found, named⟩
      refine ⟨other, ?_, named⟩
      rw [List.getElem?_append_left (List.getElem?_eq_some_iff.mp found).1]
      exact found
    · rintro ⟨other, found, named⟩
      refine ⟨other, ?_, named⟩
      by_cases old : idx.toNat < entries.length
      · rwa [List.getElem?_append_left old] at found
      · rw [List.getElem?_append_right (by omega)] at found
        have isLast : other = entry := by
          have mem := List.mem_of_getElem? found
          simpa using mem
        exact absurd (isLast ▸ named).symm same

theorem lookup_eq (locates : Locates entries idToIdx) {idx : ℕ} (room : entries.length ≤ 2 ^ 32)
    (found : entries[idx]? = some entry) :
    idToIdx.lookup entry.entryId = some (UInt32.ofNat idx) := by
  have bound := (List.getElem?_eq_some_iff.mp found).1
  rw [locates, UInt32.toNat_ofNat_of_lt' (by unfold UInt32.size; omega)]
  exact ⟨entry, found, rfl⟩

end Locates

namespace WellFormed

variable {entries : List EntryObservation} {entry : EntryObservation}

/-- There are no more entries than identifiers. -/
theorem length_le (wellFormed : WellFormed entries) : entries.length ≤ 2 ^ 32 := by
  have nodup : ((entries.map entryId).map UInt32.toFin).Nodup := by
    apply List.Nodup.map _ wellFormed.nodup_ids
    intro left right same
    exact UInt32.toFin_inj.mp same
  simpa using nodup.length_le_card

theorem length_lt (wellFormed : WellFormed (entries ++ [entry])) : entries.length < 2 ^ 32 := by
  have short := wellFormed.length_le
  rw [List.length_append, List.length_singleton] at short
  omega

end WellFormed

/-- In dense mode identifiers are positions counted from one; in sparse mode the
map locates the entries. -/
structure Indexed (entries : List EntryObservation) (isDense : Bool) (idToIdx : IdMap) : Prop where
  dense : isDense = true →
    ∀ idx entry, entries[idx]? = some entry → entry.entryId.toNat = idx + 1
  unused : isDense = true → idToIdx = ∅
  sparse : isDense = false → Locates entries idToIdx

namespace Indexed

variable {entries : List EntryObservation} {isDense : Bool} {idToIdx : IdMap}

theorem length_lt (indexed : Indexed entries true idToIdx) : entries.length < 2 ^ 32 := by
  by_contra long
  have bound : entries.length - 1 < entries.length := by omega
  have last := indexed.dense rfl _ _ (List.getElem?_eq_getElem bound)
  have word := (entries[entries.length - 1]).entryId.toNat_lt
  omega

end Indexed

namespace GraphBuilder

/-- Filling the map of a dense builder locates its entries. -/
theorem locates_sparseIndex {entries : List EntryObservation} (wellFormed : WellFormed entries) :
    Locates entries (sparseIndex ∅ (entries.map compact)) := by
  suffices filled : ∀ before after, entries = before ++ after →
      Locates before (sparseIndex ∅ (before.map compact)) from filled entries [] (by simp)
  intro before
  induction before using List.reverseRecOn with
  | nil =>
      intro after split
      exact Locates.nil
  | append_singleton before entry ih =>
      intro after split
      rw [List.append_assoc] at split
      have located := ih _ split
      have ids := wellFormed.nodup_ids
      rw [split, ← List.append_assoc, List.map_append, List.map_append] at ids
      have idsBefore := List.Nodup.of_append_left ids
      have fresh : entry.entryId ∉ before.map entryId := by
        intro mem
        exact List.disjoint_of_nodup_append idsBefore mem (by simp)
      have room : before.length < 2 ^ 32 := by
        have short := wellFormed.length_le
        rw [split, List.length_append, List.length_append, List.length_singleton] at short
        omega
      have pushed := located.push fresh room
      simpa [sparseIndex, List.zipIdx_append] using pushed

/-! ### The structural part of the invariant -/

/-- Entry vector, lookup and child links of a builder that has accepted `entries`. The links
of the entry with the last index `2 ^ 32 - 1` collide with the sentinel, so they
are only described while that index is free; the root's first child stays. -/
structure Core (builder : GraphBuilder) (entries : List EntryObservation) : Prop where
  wellFormed : WellFormed entries
  entries_eq : builder.entries = entries.map compact
  selfAlloc_eq : builder.dirSelfAlloc = entries.map selfAlloc
  indexed : Indexed entries builder.isDense builder.idToIdx
  threads : entries.length < 2 ^ 32 →
    Threads u32Max (parentIndex entries) entries.length builder.firstChild builder.lastChild
      builder.nextSibling
  root_child : 2 ≤ entries.length → builder.firstChild[0]? = some 1

namespace Core

variable {builder : GraphBuilder} {entries : List EntryObservation}

theorem new (target : String) : Core (GraphBuilder.new target) [] where
  wellFormed := .nil
  entries_eq := rfl
  selfAlloc_eq := rfl
  indexed := { dense := by simp, unused := fun _ => rfl, sparse := by simp [GraphBuilder.new] }
  threads := fun _ =>
    { first_length := rfl
      last_length := rfl
      next_length := rfl
      chain := by simp
      tail := by simp }
  root_child := by simp

@[simp]
theorem length_entries (core : Core builder entries) :
    builder.entries.length = entries.length := by
  rw [core.entries_eq, List.length_map]

theorem getElem?_entries (core : Core builder entries) {idx : ℕ} {entry : EntryObservation}
    (found : entries[idx]? = some entry) : builder.entries[idx]? = some entry.compact := by
  rw [core.entries_eq, List.getElem?_map, found]
  rfl

/-- Leaving the dense mode keeps the invariant. -/
theorem switchToSparse (core : Core builder entries) (id : UInt32) :
    Core (builder.switchToSparse id) entries := by
  unfold GraphBuilder.switchToSparse
  split
  · next leaves =>
      refine { core with indexed := ?_ }
      refine { dense := by simp, unused := by simp, sparse := fun _ => ?_ }
      rw [core.indexed.unused leaves.1, core.entries_eq]
      exact locates_sparseIndex core.wellFormed
  · exact core

/-- Where the lookup finds a parent, an entry with that identifier is stored. -/
theorem lookupParent_sound (core : Core builder entries) {parentId : UInt32} {idx : ℕ}
    (positive : parentId ≠ 0) (found : builder.lookupParent parentId = some idx) :
    ∃ parent, entries[idx]? = some parent ∧ parent.entryId = parentId := by
  unfold GraphBuilder.lookupParent at found
  split at found
  · next dense =>
      have short := (dense ▸ core.indexed).length_lt
      split at found
      · cases found
      · next within =>
          simp only [Option.some.injEq] at found
          rw [core.length_entries, UInt32.not_lt, UInt32.le_iff_toNat_le,
            UInt32.toNat_ofNat_of_lt' short] at within
          have nonzero : parentId.toNat ≠ 0 := fun zero => positive (UInt32.toNat_inj.mp zero)
          have located : idx = parentId.toNat - 1 := by
            rw [← found, UInt32.toNat_sub_of_le]
            · rfl
            · rw [UInt32.le_iff_toNat_le]
              exact Nat.one_le_iff_ne_zero.mpr nonzero
          have bound : idx < entries.length := by omega
          refine ⟨entries[idx], List.getElem?_eq_getElem bound, UInt32.toNat_inj.mp ?_⟩
          rw [core.indexed.dense dense idx _ (List.getElem?_eq_getElem bound)]
          omega
  · next sparse =>
      simp only [Option.map_eq_some_iff] at found
      rcases found with ⟨word, lookedUp, rfl⟩
      have located := core.indexed.sparse (by simpa using sparse)
      exact (located parentId word).mp lookedUp

/-- The lookup finds every stored identifier. -/
theorem lookupParent_complete (core : Core builder entries) {idx : ℕ} {parent : EntryObservation}
    (found : entries[idx]? = some parent) : builder.lookupParent parent.entryId = some idx := by
  have bound := (List.getElem?_eq_some_iff.mp found).1
  unfold GraphBuilder.lookupParent
  split
  · next dense =>
      have short := (dense ▸ core.indexed).length_lt
      have named := core.indexed.dense dense idx parent found
      rw [if_neg, UInt32.toNat_sub_of_le]
      · rw [named]
        rfl
      · rw [UInt32.le_iff_toNat_le, named]
        exact Nat.le_add_left 1 idx
      · rw [core.length_entries, UInt32.not_lt, UInt32.le_iff_toNat_le,
          UInt32.toNat_ofNat_of_lt' short]
        omega
  · next sparse =>
      have located := core.indexed.sparse (by simpa using sparse)
      have long := core.wellFormed.length_le
      rw [located.lookup_eq long found]
      simp only [Option.map_some, Option.some.injEq]
      exact UInt32.toNat_ofNat_of_lt' (by unfold UInt32.size; omega)

/-- An identifier that passes the duplicate check is new, and next in sequence while dense. -/
theorem fresh_of_not_isDuplicate (core : Core builder entries) {id : UInt32}
    (aligned : builder.isDense = true → id = UInt32.ofNat (entries.length + 1))
    (passed : builder.isDuplicate id = false) :
    id ∉ entries.map entryId ∧ (builder.isDense = true → id.toNat = entries.length + 1) := by
  unfold GraphBuilder.isDuplicate at passed
  split at passed
  · next dense =>
      have short := (dense ▸ core.indexed).length_lt
      simp only [core.length_entries, decide_eq_false_iff_not, UInt32.not_le,
        UInt32.lt_iff_toNat_lt, UInt32.toNat_ofNat_of_lt' short] at passed
      have named : id.toNat = entries.length + 1 := by
        rw [aligned dense] at passed ⊢
        by_cases last : entries.length + 1 = 2 ^ 32
        · rw [last] at passed
          simp at passed
        · exact UInt32.toNat_ofNat_of_lt' (by unfold UInt32.size; omega)
      refine ⟨?_, fun _ => named⟩
      intro known
      rcases List.mem_map.mp known with ⟨entry, entryMem, rfl⟩
      rcases List.mem_iff_getElem?.mp entryMem with ⟨idx, found⟩
      have bound := (List.getElem?_eq_some_iff.mp found).1
      have old := core.indexed.dense dense idx entry found
      omega
  · next sparse =>
      refine ⟨?_, fun dense => absurd dense sparse⟩
      intro known
      rcases List.mem_map.mp known with ⟨entry, entryMem, rfl⟩
      rcases List.mem_iff_getElem?.mp entryMem with ⟨idx, found⟩
      have located := core.indexed.sparse (by simpa using sparse)
      rw [located.lookup_eq core.wellFormed.length_le found] at passed
      simp at passed

/-- A new identifier passes the duplicate check, except past the last dense position. -/
theorem not_isDuplicate_of_fresh (core : Core builder entries) {id : UInt32}
    (aligned : builder.isDense = true → id = UInt32.ofNat (entries.length + 1))
    (fresh : id ∉ entries.map entryId) (room : entries.length + 1 < 2 ^ 32) :
    builder.isDuplicate id = false := by
  unfold GraphBuilder.isDuplicate
  split
  · next dense =>
      rw [aligned dense, core.length_entries, decide_eq_false_iff_not, UInt32.not_le,
        UInt32.lt_iff_toNat_lt, UInt32.toNat_ofNat_of_lt' (by unfold UInt32.size; omega),
        UInt32.toNat_ofNat_of_lt' room]
      exact Nat.lt_succ_self _
  · next sparse =>
      have located := core.indexed.sparse (by simpa using sparse)
      rw [Option.isSome_eq_false_iff, Option.isNone_iff_eq_none]
      apply Option.eq_none_iff_forall_ne_some.mpr
      intro idx found
      rcases (located id idx).mp found with ⟨entry, stored, named⟩
      exact fresh (List.mem_map.mpr ⟨entry, List.mem_of_getElem? stored, named⟩)

theorem switchToSparse_aligned (builder : GraphBuilder) (id : UInt32) :
    (builder.switchToSparse id).isDense = true →
      id = UInt32.ofNat (builder.entries.length + 1) := by
  unfold GraphBuilder.switchToSparse
  split
  · simp
  · next stays =>
      intro dense
      by_contra different
      exact stays ⟨dense, different⟩

/-- The lookup after one more entry. -/
theorem indexed_push (core : Core builder entries) (entry : EntryObservation)
    (fresh : entry.entryId ∉ entries.map entryId) (room : entries.length < 2 ^ 32)
    (next : builder.isDense = true → entry.entryId.toNat = entries.length + 1) :
    Indexed (entries ++ [entry]) builder.isDense
      (if builder.isDense then builder.idToIdx
       else builder.idToIdx.insert entry.entryId (UInt32.ofNat entries.length)) where
  dense := by
    intro dense idx other found
    by_cases old : idx < entries.length
    · rw [List.getElem?_append_left old] at found
      exact core.indexed.dense dense idx other found
    · have bound := (List.getElem?_eq_some_iff.mp found).1
      rw [List.length_append, List.length_singleton] at bound
      have atEnd : idx = entries.length := by omega
      subst atEnd
      rw [List.getElem?_concat_length, Option.some.injEq] at found
      rw [← found]
      exact next dense
  unused := by
    intro dense
    rw [if_pos dense]
    exact core.indexed.unused dense
  sparse := by
    intro sparse
    rw [if_neg (by simp [sparse])]
    exact (core.indexed.sparse sparse).push fresh room

/-- Linking a new entry to its parent: the vectors with the new entry pushed
thread the longer list, and the root keeps its first child. -/
theorem linkChild (core : Core builder entries) {entry : EntryObservation}
    (wellFormed : WellFormed (entries ++ [entry])) {parentIdx : ℕ}
    (owner : parentIndex (entries ++ [entry]) entries.length = parentIdx)
    (inside : parentIdx < entries.length) :
    ∃ firstChild lastChild nextSibling,
      builder.linkChild parentIdx =
        .ok { builder with firstChild, lastChild, nextSibling } ∧
      (entries.length + 1 < 2 ^ 32 →
        Threads u32Max (parentIndex (entries ++ [entry])) (entries.length + 1)
          (firstChild ++ [u32Max]) (lastChild ++ [u32Max]) (nextSibling ++ [u32Max])) ∧
      (firstChild ++ [u32Max])[0]? = some 1 := by
  have room := wellFormed.length_lt
  have positive : 0 < entries.length := by omega
  have threads := (core.threads room).congr
    (fun idx idxInside => (core.wellFormed.parentIndex_append [entry] idxInside).symm)
  have parentLt : ∀ idx, 0 < idx → parentIndex (entries ++ [entry]) idx < idx :=
    fun _ idxPositive => wellFormed.parentIndex_lt idxPositive
  have word : (UInt32.ofNat entries.length).toNat = entries.length :=
    UInt32.toNat_ofNat_of_lt' room
  have running : entries.length + 1 < 2 ^ 32 → UInt32.ofNat entries.length ≠ u32Max := by
    intro short same
    rw [same] at word
    have : u32Max.toNat = 2 ^ 32 - 1 := rfl
    omega
  rcases threads.chain parentIdx inside with ⟨start, found, walk⟩
  unfold GraphBuilder.linkChild
  simp only [core.length_entries, getAt_of_getElem? found, Checked.ok_bind]
  by_cases childless : start = u32Max
  · rw [if_pos childless, setAt_of_lt (by simpa [threads.first_length] using inside),
      setAt_of_lt (by simpa [threads.last_length] using inside)]
    have none := walk.eq_stop_iff.mp childless
    refine ⟨_, _, _, rfl, ?_, ?_⟩
    · intro short
      subst owner
      exact threads.append_first parentLt positive (running short) word none
    · rw [List.getElem?_append_left (by simp [threads.first_length, positive])]
      by_cases single : entries.length = 1
      · have atRoot : parentIdx = 0 := by omega
        rw [atRoot, List.getElem?_set_self (by simp [threads.first_length, positive]), single]
        rfl
      · have rootChild := core.root_child (by omega)
        have notRoot : parentIdx ≠ 0 := by
          rintro rfl
          rw [rootChild, Option.some.injEq] at found
          rw [← found] at childless
          exact absurd childless (by decide)
        rw [List.getElem?_set_ne notRoot]
        exact rootChild
  · rw [if_neg childless]
    rcases List.eq_nil_or_concat (kids (parentIndex (entries ++ [entry])) entries.length parentIdx)
      with none | ⟨initial, prev, split⟩
    · exact absurd (walk.eq_stop_iff.mpr none) childless
    · rw [List.concat_eq_append] at split
      rcases threads.tail parentIdx inside initial prev split with ⟨tailWord, tailFound, named⟩
      have prevLt : prev < entries.length := by
        have mem : prev ∈ kids (parentIndex (entries ++ [entry])) entries.length parentIdx := by
          simp [split]
        exact (mem_kids.mp mem).1
      simp only [getAt_of_getElem? tailFound, Checked.ok_bind, named]
      rw [setAt_of_lt (by simpa [threads.next_length] using prevLt),
        setAt_of_lt (by simpa [threads.last_length] using inside)]
      refine ⟨_, _, _, rfl, ?_, ?_⟩
      · intro short
        subst owner
        exact threads.append_next parentLt positive (running short) word split
      · rw [List.getElem?_append_left (by simp [threads.first_length, positive])]
        apply core.root_child
        by_contra single
        have none : kids (parentIndex (entries ++ [entry])) entries.length parentIdx = [] := by
          have one : entries.length = 1 := by omega
          simp [kids, one, List.range_succ]
        rw [none] at split
        simp at split

end Core

/-! ### Inserting an entry -/

/-- The builder with another identifier lookup. -/
def reindexed (builder : GraphBuilder) (isDense : Bool) (idToIdx : IdMap) : GraphBuilder :=
  { builder with isDense, idToIdx }

/-- The builder with one more entry, another lookup and other child links. -/
def extended (builder : GraphBuilder) (entry : EntryObservation) (isDense : Bool)
    (idToIdx : IdMap) (firstChild lastChild nextSibling : List UInt32) : GraphBuilder :=
  { builder with
    isDense, idToIdx, firstChild, lastChild, nextSibling
    entries := builder.entries ++ [entry.compact]
    dirSelfAlloc := builder.dirSelfAlloc ++ [entry.selfAlloc] }

theorem switchToSparse_eq (builder : GraphBuilder) (id : UInt32) :
    builder.switchToSparse id = builder.reindexed (builder.switchToSparse id).isDense
      (builder.switchToSparse id).idToIdx := by
  unfold switchToSparse reindexed
  split <;> rfl

variable {builder : GraphBuilder} {entries : List EntryObservation}

/-- The outcome of an insertion: the builder keeps describing its entries, or describes
one more; it rejects an entry only if the entry does not fit. -/
inductive Inserted (builder : GraphBuilder) (entries : List EntryObservation)
    (entry : EntryObservation) : Checked (Except GraphBuildError Unit × GraphBuilder) → Prop
  | rejected (err : GraphBuildError) (isDense : Bool) (idToIdx : IdMap)
      (core : Core (builder.reindexed isDense idToIdx) entries)
      (unfit : ¬(WellFormed (entries ++ [entry]) ∧ entries.length + 1 < 2 ^ 32)) :
      Inserted builder entries entry (.ok (.error err, builder.reindexed isDense idToIdx))
  | accepted (isDense : Bool) (idToIdx : IdMap) (firstChild lastChild nextSibling : List UInt32)
      (core : Core (builder.extended entry isDense idToIdx firstChild lastChild nextSibling)
        (entries ++ [entry])) :
      Inserted builder entries entry
        (.ok (.ok (), builder.extended entry isDense idToIdx firstChild lastChild nextSibling))

/-- A rejection that leaves the builder as it is. -/
theorem Inserted.unchanged (core : Core builder entries) {entry : EntryObservation}
    (err : GraphBuildError)
    (unfit : ¬(WellFormed (entries ++ [entry]) ∧ entries.length + 1 < 2 ^ 32)) :
    Inserted builder entries entry (builder.reject err) :=
  Inserted.rejected err builder.isDense builder.idToIdx core unfit

theorem insertBelowRoot_spec (core : Core builder entries) (nonempty : entries ≠ [])
    {entry : EntryObservation} (below : entry.parentId ≠ 0)
    (aligned : builder.isDense = true → entry.entryId = UInt32.ofNat (entries.length + 1)) :
    Inserted builder entries entry
      (builder.insertBelowRoot entry.entryId entry.parentId entry.compact entry.selfAlloc) := by
  unfold insertBelowRoot
  cases duplicate : builder.isDuplicate entry.entryId with
  | true =>
      apply Inserted.unchanged core
      rintro ⟨wellFormed, room⟩
      have ids := wellFormed.nodup_ids
      rw [List.map_append] at ids
      have fresh : entry.entryId ∉ entries.map entryId :=
        fun mem => List.disjoint_of_nodup_append ids mem (by simp)
      simp [core.not_isDuplicate_of_fresh aligned fresh room] at duplicate
  | false =>
      rcases core.fresh_of_not_isDuplicate aligned duplicate with ⟨fresh, next⟩
      have attached : WellFormed (entries ++ [entry]) →
          ∃ parent ∈ entries, parent.entryId = entry.parentId ∧ parent.kind = .directory :=
        fun wellFormed => (wellFormed.attached entries entry [] rfl nonempty).2
      cases found : builder.lookupParent entry.parentId with
      | none =>
          apply Inserted.unchanged core
          rintro ⟨wellFormed, _⟩
          rcases attached wellFormed with ⟨parent, parentMem, named, _⟩
          rcases List.mem_iff_getElem?.mp parentMem with ⟨idx, stored⟩
          have lookedUp := core.lookupParent_complete stored
          rw [named, found] at lookedUp
          cases lookedUp
      | some parentIdx =>
          rcases core.lookupParent_sound below found with ⟨parent, stored, named⟩
          have inside := (List.getElem?_eq_some_iff.mp stored).1
          simp only [Bool.false_eq_true, if_false, getAt_of_getElem? (core.getElem?_entries stored),
            Checked.ok_bind, compact_kind]
          by_cases directory : parent.kind = .directory
          · rw [if_neg (not_not_intro directory)]
            have wellFormed := core.wellFormed.push nonempty fresh below
              (List.mem_of_getElem? stored) named directory
            have known : entry.parentId ∈ entries.map entryId :=
              named ▸ List.mem_map_of_mem (List.mem_of_getElem? stored)
            have owner : parentIndex (entries ++ [entry]) entries.length = parentIdx := by
              rw [WellFormed.parentIndex_last nonempty entry known, ← named]
              exact core.wellFormed.indexOf_eq stored
            rcases core.linkChild wellFormed owner inside with
              ⟨firstChild, lastChild, nextSibling, linked, threads, rootChild⟩
            rw [linked]
            have indexed := core.indexed_push entry fresh wellFormed.length_lt next
            rw [← core.length_entries] at indexed
            refine Inserted.accepted _ _ _ _ _ ?_
            exact {
              wellFormed := wellFormed
              entries_eq := by simp [extended, core.entries_eq]
              selfAlloc_eq := by simp [extended, core.selfAlloc_eq]
              indexed := indexed
              threads := by simpa [extended] using threads
              root_child := fun _ => rootChild }
          · rw [if_pos directory]
            apply Inserted.unchanged core
            rintro ⟨wellFormed, _⟩
            rcases attached wellFormed with ⟨other, otherMem, otherNamed, otherDirectory⟩
            have same := core.wellFormed.eq_of_entryId otherMem (List.mem_of_getElem? stored)
              (otherNamed.trans named.symm)
            exact directory (same ▸ otherDirectory)

/-- The first entry: only a root directory fits. -/
theorem insertRoot_spec (core : Core builder []) (entry : EntryObservation) :
    Inserted builder [] entry
      (if entry.entryId ≠ 1 ∨ entry.parentId ≠ 0 then
        builder.reject (.invalidRoot entry.entryId entry.parentId)
      else if entry.compact.kind ≠ .directory then
        builder.reject (.invalidRoot entry.entryId entry.parentId)
      else .ok (.ok (), builder.pushEntry entry.entryId entry.compact entry.selfAlloc)) := by
  by_cases misplaced : entry.entryId ≠ 1 ∨ entry.parentId ≠ 0
  · rw [if_pos misplaced]
    apply Inserted.unchanged core
    rintro ⟨wellFormed, _⟩
    rcases wellFormed.root_first entry rfl with ⟨identifier, above, _⟩
    rcases misplaced with other | other
    · exact other identifier
    · exact other above
  · rw [if_neg misplaced, compact_kind]
    simp only [not_or, not_not] at misplaced
    by_cases directory : entry.kind = .directory
    · rw [if_neg (not_not_intro directory)]
      have wellFormed := WellFormed.root misplaced.1 misplaced.2 directory
      refine Inserted.accepted builder.isDense _ _ _ _ ?_
      have rootEntries : builder.entries = [] := by simp [core.entries_eq]
      have indexed := core.indexed_push entry (by simp) (by simp)
        (fun _ => by rw [misplaced.1]; rfl)
      have threads := core.threads (by simp)
      exact {
        wellFormed := wellFormed
        entries_eq := by simp [extended, rootEntries]
        selfAlloc_eq := by simp [extended, core.selfAlloc_eq]
        indexed := by simpa [extended, rootEntries] using indexed
        threads := by
          intro _
          have noFirst := List.length_eq_zero_iff.mp threads.first_length
          have noLast := List.length_eq_zero_iff.mp threads.last_length
          have noNext := List.length_eq_zero_iff.mp threads.next_length
          simpa [extended, noFirst, noLast, noNext] using
            Threads.single u32Max (parentIndex [entry])
        root_child := by simp }
    · rw [if_pos directory]
      apply Inserted.unchanged core
      rintro ⟨wellFormed, _⟩
      exact directory (wellFormed.root_first entry rfl).2.2

/-- What an insertion can do, whatever the entry. -/
theorem validateAndInsertEntry_spec (core : Core builder entries) (entry : EntryObservation) :
    Inserted builder entries entry
      (builder.validateAndInsertEntry entry.entryId entry.parentId entry.compact
        entry.selfAlloc) := by
  unfold validateAndInsertEntry
  by_cases selfParent : entry.entryId = entry.parentId
  · rw [if_pos selfParent]
    apply Inserted.unchanged core
    rintro ⟨wellFormed, _⟩
    have ids := wellFormed.nodup_ids
    rw [List.map_append] at ids
    by_cases empty : entries = []
    · subst empty
      rcases wellFormed.root_first entry rfl with ⟨identifier, above, _⟩
      rw [identifier, above] at selfParent
      exact absurd selfParent (by decide)
    · rcases (wellFormed.attached entries entry [] rfl empty).2 with ⟨parent, parentMem, named, _⟩
      apply List.disjoint_of_nodup_append ids (List.mem_map_of_mem parentMem)
      simp [selfParent, named]
  · rw [if_neg selfParent, core.length_entries]
    by_cases empty : entries = []
    · subst empty
      rw [if_pos List.length_nil]
      exact insertRoot_spec core entry
    · have someEntries : ¬entries.length = 0 := by simpa using empty
      rw [if_neg someEntries]
      by_cases misplaced : entry.parentId = 0 ∨ entry.entryId = 1
      · rw [if_pos misplaced]
        apply Inserted.unchanged core
        rintro ⟨wellFormed, _⟩
        rcases misplaced with above | identifier
        · exact (wellFormed.attached entries entry [] rfl empty).1 above
        · rcases List.exists_cons_of_ne_nil empty with ⟨root, rest, rfl⟩
          have rootId := (core.wellFormed.root_first root rfl).1
          have ids := wellFormed.nodup_ids
          rw [List.map_append] at ids
          apply List.disjoint_of_nodup_append ids (a := entry.entryId)
          · simp [rootId, identifier]
          · simp
      · rw [if_neg misplaced]
        simp only [not_or] at misplaced
        have switched := core.switchToSparse entry.entryId
        have aligned := core.length_entries ▸ Core.switchToSparse_aligned builder entry.entryId
        have inserted := insertBelowRoot_spec switched empty misplaced.1 aligned
        rw [switchToSparse_eq] at inserted ⊢
        generalize (builder.reindexed (builder.switchToSparse entry.entryId).isDense
          (builder.switchToSparse entry.entryId).idToIdx).insertBelowRoot entry.entryId
            entry.parentId entry.compact entry.selfAlloc = result at inserted
        cases inserted with
        | rejected err isDense idToIdx core unfit =>
            exact Inserted.rejected err isDense idToIdx core unfit
        | accepted isDense idToIdx firstChild lastChild nextSibling core =>
            exact Inserted.accepted isDense idToIdx firstChild lastChild nextSibling core

end GraphBuilder

end PigTree
