import PigTree.Engine.ChildTable

/-!
# The finished graph

The five phases together. `finish` aborts exactly when there are `2 ^ 32`
entries or a directory cannot afford what its children lost to the truncation.
Whatever it returns is a `Finished` graph: its entries, lookups, sums and child
table are those of the accepted entries.
-/

namespace PigTree

open Foundation ParentTree EntryObservation

namespace GraphBuilder

variable {rt : Runtime} {builder : GraphBuilder} {target : String}
  {records : List ObservationRecord} {s : Snapshot} {graph : DirectoryGraph}

/-! ### The phases return -/

/-- Streams belong to known entries, so attributing them never aborts. -/
theorem attributeStreams_ok (represents : Represents target builder records)
    {entries : List CompactEntry} (length_eq : entries.length = (entriesOf records).length) :
    ∃ streams, builder.attributeStreams entries = .ok streams := by
  have loop : ∃ streams, builder.pendingStreams.foldlM (attributeStream entries)
      builder.objectStreams = .ok streams ∧ True := by
    refine foldlM_ok builder.pendingStreams (fun _ _ => True) trivial ?_
    intro seen pending rest streams split _
    have mem : pending ∈ builder.pendingStreams := by simp [split]
    rw [represents.pending_eq, List.mem_map] at mem
    rcases mem with ⟨stream, streamMem, rfl⟩
    have inside : indexOf (entriesOf records) stream.parentEntryId < entries.length := by
      have known := List.idxOf_lt_length_iff.mpr (represents.pending_known stream streamMem)
      rw [List.length_map] at known
      exact length_eq ▸ known
    rcases exists_getElem? inside with ⟨entry, found⟩
    simp only [attributeStream, getAt_of_getElem? found, Checked.ok_bind]
    split
    · exact ⟨_, rfl, trivial⟩
    · exact ⟨_, rfl, trivial⟩
  rcases loop with ⟨streams, ran, _⟩
  exact ⟨streams, ran⟩

theorem length_updateEntries {ids : List UInt32} {update : CompactEntry → CompactEntry}
    {entries updated : List CompactEntry}
    (ran : builder.updateEntries ids update entries = .ok updated) :
    updated.length = entries.length := by
  refine foldlM_invariant ids (fun _ state => state.length = entries.length) rfl ?_ ran
  intro seen id rest state next _ kept stepped
  rcases Checked.bind_eq_ok.mp stepped with ⟨position, _, modified⟩
  rw [length_modifyAt modified, kept]

/-- Phase 1 keeps the number of entries. -/
theorem length_normalizeObjects {state : Normalized}
    (ran : builder.normalizeObjects rt = .ok state) :
    state.entries.length = builder.entries.length := by
  simp only [normalizeObjects, Checked.bind_eq_ok] at ran
  rcases ran with ⟨files, filesRan, dirs, dirsRan, final⟩
  have filesLength : files.entries.length = builder.entries.length := by
    refine foldlM_invariant _ (fun _ (state : Normalized) =>
      state.entries.length = builder.entries.length) rfl ?_ filesRan
    intro seen object rest state next _ kept stepped
    simp only [normalizeFileObject, Checked.bind_eq_ok, Checked.pure_eq_ok, Except.ok.injEq]
      at stepped
    rcases stepped with ⟨allocs, _, flagged, flaggedRan, updated, updatedRan, rfl⟩
    have flaggedLength : flagged.length = state.entries.length := by
      unfold flagConflict at flaggedRan
      split at flaggedRan
      · exact length_updateEntries flaggedRan
      · exact (Except.ok.inj flaggedRan) ▸ rfl
    rw [length_updateEntries updatedRan, flaggedLength, kept]
  have dirsLength : dirs.entries.length = builder.entries.length := by
    refine foldlM_invariant _ (fun _ (state : Normalized) =>
      state.entries.length = builder.entries.length) filesLength ?_ dirsRan
    intro seen object rest state next _ kept stepped
    simp only [normalizeDirObject, Checked.bind_eq_ok, Checked.pure_eq_ok, Except.ok.injEq]
      at stepped
    rcases stepped with ⟨position, _, modified, modifiedRan, rfl⟩
    rw [length_modifyAt modifiedRan, kept]
  have anonymous : (dirs.entries.foldl builder.normalizeAnonymousFile
      { dirs with entries := [] }).entries.length = dirs.entries.length := by
    refine foldl_invariant dirs.entries (fun seen (state : Normalized) =>
      state.entries.length = seen.length) rfl ?_
    intro seen entry rest state _ kept
    unfold normalizeAnonymousFile
    split
    · dsimp only
      split <;> simp [kept]
    · simp [kept]
  rw [← Except.ok.inj final, anonymous, dirsLength]

/-! ### All phases together -/

/-- The phases up to the sums, which always return. -/
structure Prepared (rt : Runtime) (builder : GraphBuilder) (s : Snapshot) (normalized : Normalized)
    (streams : ObjectStreams) (t : Traversal) (leaves : List CompactEntry) : Prop where
  normalized_ran : builder.normalizeObjects rt = .ok normalized
  streams_ran : builder.attributeStreams normalized.entries = .ok streams
  traversed : builder.traverse normalized.entries normalized.objects = .ok t
  ordered : t.postOrder = s.tree.postorder 0
  leaves_ran : (s.tree.postorder 0).foldlM (setLeafUnique normalized.objects) normalized.entries =
    .ok leaves
  settledLeaves : Leaves s normalized.entries normalized.objects leaves
  corrections : Corrections s normalized.entries normalized.objects t.treeDelta
    (lastOf t.lastOccurrence)

theorem prepare_ok (rt : Runtime) (represents : Represents target builder records)
    (same : s.entries = entriesOf records) (nonempty : 0 < s.entries.length)
    (short : s.entries.length < 2 ^ 32) :
    ∃ normalized streams t leaves, Prepared rt builder s normalized streams t leaves := by
  have core : Core builder s.entries := same ▸ represents.core
  have tally : Tally builder s.entries := same ▸ represents.tally
  rcases normalizeObjects_ok rt core tally short with ⟨normalized, normalizedRan, table⟩
  rcases attributeStreams_ok represents (same ▸ table.tagged.length_eq) with ⟨streams, streamsRan⟩
  rcases traverse_ok core table short nonempty with ⟨t, traversed, ordered, books⟩
  have nodup : (s.tree.postorder 0).Nodup := nodup_postorder nonempty
  rcases setLeaves_ok table nodup (fun idx mem => ((mem_postorder nonempty).mp mem).1) with
    ⟨leaves, leavesRan, leavesLength, leavesSettled⟩
  refine ⟨normalized, streams, t, leaves, normalizedRan, streamsRan, traversed, ordered, leavesRan,
    ⟨table, leavesLength, ?_⟩, ⟨books.delta_length, books.accounts⟩⟩
  intro idx compact found
  have inside := (List.getElem?_eq_some_iff.mp found).1
  rw [table.tagged.length_eq] at inside
  rw [leavesSettled idx compact found, if_pos]
  exact (mem_postorder nonempty).mpr ⟨inside, s.tree.isAncestor_zero idx⟩

/-- The last two phases on prepared entries, and what they make of them. -/
structure Executed (rt : Runtime) (builder : GraphBuilder) (s : Snapshot) (aggregates : Aggregates)
    (normalized : Normalized) (treeDelta : List ℤ) (leaves final : List CompactEntry)
    (slices : List (List UInt32)) : Prop where
  normalized_ran : builder.normalizeObjects rt = .ok normalized
  streams_ran : builder.attributeStreams normalized.entries = .ok aggregates.objectStreams
  settledLeaves : Leaves s normalized.entries normalized.objects leaves
  rolled : Rolled builder s treeDelta leaves (s.tree.postorder 0) final
  settled : Settled s normalized.entries final
  counted : slices.length = final.length
  laidOut : LaidOut rt s final slices
    { entries := aggregates.entries, allChildren := aggregates.allChildren }
  objects_eq : aggregates.objects = normalized.objects
  known_eq : aggregates.allocatedBytesKnown = normalized.allocatedBytesKnown
  indeterminate_eq : aggregates.indeterminateObjects = normalized.indeterminateObjects

/-- What the phases leave behind. -/
structure Completed (rt : Runtime) (s : Snapshot) (aggregates : Aggregates) : Prop where
  short : s.entries.length < 2 ^ 32
  affordable : Affordable s
  phases : ∃ (tagged settled : List CompactEntry) (slices : List (List UInt32)),
    ObjectTable s tagged aggregates.objects ∧ Settled s tagged settled ∧
      slices.length = settled.length ∧
        LaidOut rt s settled slices
          { entries := aggregates.entries, allChildren := aggregates.allChildren }

theorem Settled.names {tagged settled : List CompactEntry} {objects : List ObjectRecord}
    (settles : Settled s tagged settled) (table : ObjectTable s tagged objects) :
    Named s settled where
  length_eq := settles.length_eq
  named := by
    intro idx compact stored
    have inside := (List.getElem?_eq_some_iff.mp stored).1
    rw [settles.length_eq] at inside
    have found := List.getElem?_eq_getElem inside
    rcases table.tagged.tagged idx _ found with ⟨objectIndex, known, before⟩
    rcases settles.settled idx _ before with ⟨other, otherStored, same, _⟩
    rw [stored, Option.some.injEq] at otherStored
    subst otherStored
    refine ⟨_, found, ?_, ?_⟩
    · exact (congrArg CompactEntry.id same).trans (tagged_id _ objectIndex known)
    · exact (congrArg CompactEntry.kind same).trans (tagged_kind _ objectIndex known)

/-- With `2 ^ 32` entries their number is zero as a 32-bit word, and the traversal aborts. -/
theorem computeAggregates_short (rt : Runtime) (core : Core builder s.entries)
    {aggregates : Aggregates} (ran : builder.computeAggregates rt = .ok aggregates) :
    s.entries.length < 2 ^ 32 := by
  by_contra long
  have full : s.entries.length = 2 ^ 32 := by
    have bound := s.wellFormed.length_le
    omega
  simp only [computeAggregates, Checked.bind_eq_ok] at ran
  rcases ran with ⟨normalized, normalizedRan, streams, _, t, traversed, _⟩
  have count : normalized.entries.length = 2 ^ 32 := by
    rw [length_normalizeObjects normalizedRan, core.length_entries, full]
  have rootChild := core.root_child (by omega)
  refine absurd traversed (traverse_full ?_ (by omega) rootChild t)
  rw [count]
  rfl

/-- Aggregates that were returned are the result of all phases. -/
theorem computeAggregates_executed (rt : Runtime) (represents : Represents target builder records)
    (same : s.entries = entriesOf records) (nonempty : 0 < s.entries.length)
    {aggregates : Aggregates} (ran : builder.computeAggregates rt = .ok aggregates) :
    s.entries.length < 2 ^ 32 ∧ Affordable s ∧
      ∃ normalized treeDelta leaves final slices,
        Executed rt builder s aggregates normalized treeDelta leaves final slices := by
  have core : Core builder s.entries := same ▸ represents.core
  have short := computeAggregates_short rt core ran
  rcases prepare_ok rt represents same nonempty short with
    ⟨normalized, streams, t, leaves, prepared⟩
  simp only [computeAggregates, prepared.normalized_ran, prepared.streams_ran, prepared.traversed,
    prepared.ordered, prepared.leaves_ran, Checked.ok_bind, Checked.bind_eq_ok] at ran
  rcases ran with ⟨final, finalRan, laid, laidRan, result⟩
  have rollup := (rollup_spec core prepared.settledLeaves prepared.corrections short nonempty).2 final
    finalRan
  have rolled := rollup_invariant core short prepared.corrections.length_eq
    (prepared.corrections.bounds short nonempty) nonempty prepared.settledLeaves.length_eq finalRan
  rcases layOut_ok rt core short (rollup.2.names prepared.settledLeaves.table) with
    ⟨other, slices, otherRan, counted, laidOut⟩
  rw [laidRan, Except.ok.injEq] at otherRan
  subst otherRan
  rw [Checked.pure_eq_ok, Except.ok.injEq] at result
  subst result
  exact ⟨short, rollup.1, normalized, t.treeDelta, leaves, final, slices, {
    normalized_ran := prepared.normalized_ran
    streams_ran := prepared.streams_ran
    settledLeaves := prepared.settledLeaves
    rolled := rolled
    settled := rollup.2
    counted := counted
    laidOut := laidOut
    objects_eq := rfl
    known_eq := rfl
    indeterminate_eq := rfl }⟩

/-- The phases return exactly on less than `2 ^ 32` entries whose directories can
afford what their children lost. -/
theorem computeAggregates_spec (rt : Runtime) (represents : Represents target builder records)
    (same : s.entries = entriesOf records) (nonempty : 0 < s.entries.length) :
    (s.entries.length < 2 ^ 32 → Affordable s →
      ∃ aggregates, builder.computeAggregates rt = .ok aggregates) ∧
    ∀ aggregates, builder.computeAggregates rt = .ok aggregates → Completed rt s aggregates := by
  have core : Core builder s.entries := same ▸ represents.core
  constructor
  · intro short affordable
    rcases prepare_ok rt represents same nonempty short with
      ⟨normalized, streams, t, leaves, prepared⟩
    have rollup := rollup_spec core prepared.settledLeaves prepared.corrections short nonempty
    rcases rollup.1 affordable with ⟨final, finalRan⟩
    have settles := (rollup.2 final finalRan).2
    rcases layOut_ok rt core short (settles.names prepared.settledLeaves.table) with
      ⟨laid, slices, laidRan, _, _⟩
    refine ⟨{
      entries := laid.entries
      objects := normalized.objects
      objectStreams := streams
      allChildren := laid.allChildren
      indeterminateObjects := normalized.indeterminateObjects
      allocatedBytesKnown := normalized.allocatedBytesKnown }, ?_⟩
    simp only [computeAggregates, prepared.normalized_ran, prepared.streams_ran,
      prepared.traversed, prepared.ordered, prepared.leaves_ran, finalRan, laidRan, Checked.ok_bind]
    rfl
  · intro aggregates ran
    rcases computeAggregates_executed rt represents same nonempty ran with
      ⟨short, affordable, normalized, treeDelta, leaves, final, slices, executed⟩
    exact ⟨short, affordable, normalized.entries, final, slices,
      executed.objects_eq ▸ executed.settledLeaves.table, executed.settled, executed.counted,
      executed.laidOut⟩

/-! ### The finished graph -/

/-- A stored entry and the accepted entry at its position. -/
structure Delivered (s : Snapshot) (idx : ℕ) (entry : EntryObservation) (compact : CompactEntry) :
    Prop where
  id_eq : compact.id = entry.entryId
  parentId_eq : compact.parentId = entry.parentId
  name_eq : compact.name = entry.name
  kind_eq : compact.kind = entry.kind
  values : SettledValues s idx compact

/-- A graph that presents the entries of a snapshot. -/
structure Finished (rt : Runtime) (s : Snapshot) (graph : DirectoryGraph) : Prop where
  short : s.entries.length < 2 ^ 32
  affordable : Affordable s
  length_eq : graph.storage.entries.length = s.entries.length
  delivered : ∀ (idx : ℕ) (entry : EntryObservation), s.entries[idx]? = some entry →
    ∃ compact, graph.storage.entries[idx]? = some compact ∧ Delivered s idx entry compact
  owned : ∀ compact ∈ graph.storage.entries, compact.objectIndex ≠ noObject →
    compact.objectIndex.toNat < graph.objects.length
  get_iff : ∀ id compact, graph.storage.get id = some compact ↔
    id ≠ 0 ∧ compact ∈ graph.storage.entries ∧ compact.id = id
  rootId_eq : graph.rootId = if s.entries = [] then 0 else 1
  slice : ∀ (idx : ℕ) (compact : CompactEntry), graph.storage.entries[idx]? = some compact →
    ∃ slice, IsSlice rt s graph.storage.entries idx slice ∧
      compact.childCount.toNat = slice.length ∧ (compact.kind = .directory →
        sliceAt graph.allChildren compact.childStart.toNat compact.childCount.toNat = .ok slice)
  tiled : ∀ position < graph.allChildren.length, ∃! idx : ℕ, ∃ compact : CompactEntry,
    graph.storage.entries[idx]? = some compact ∧ compact.kind = .directory ∧
      compact.childStart.toNat ≤ position ∧
        position < compact.childStart.toNat + compact.childCount.toNat
  listed : graph.allChildren.Perm (s.entries.tail.map entryId)

/-- Every stored entry goes back to an accepted one. -/
theorem Finished.found (finished : Finished rt s graph) {compact : CompactEntry}
    (compactMem : compact ∈ graph.storage.entries) :
    ∃ idx entry, graph.storage.entries[idx]? = some compact ∧ s.entries[idx]? = some entry ∧
      Delivered s idx entry compact := by
  rcases List.mem_iff_getElem?.mp compactMem with ⟨idx, stored⟩
  have inside := (List.getElem?_eq_some_iff.mp stored).1
  rw [finished.length_eq] at inside
  have found := List.getElem?_eq_getElem inside
  rcases finished.delivered idx _ found with ⟨other, otherStored, delivered⟩
  rw [stored, Option.some.injEq] at otherStored
  exact ⟨idx, _, stored, found, otherStored ▸ delivered⟩

/-- The positions below the root carry the entries after the first. -/
theorem map_valueAt_tail {M : Type} [Zero M] (s : Snapshot) (value : EntryObservation → M) :
    ((List.range s.entries.length).filter (fun idx => 0 < idx)).map (s.valueAt value) =
      s.entries.tail.map value := by
  cases entries : s.entries with
  | nil => rfl
  | cons root below =>
      rw [List.length_cons, List.range_succ_eq_map, List.filter_cons_of_neg (by simp),
        List.filter_eq_self.mpr (by simp), List.map_map, List.tail_cons]
      apply List.ext_getElem?
      intro idx
      simp only [List.getElem?_map]
      by_cases inside : idx < below.length
      · simp [inside, Snapshot.valueAt, entries]
      · simp [inside]

section Table

variable {settled : List CompactEntry} {slices : List (List UInt32)} {table : ChildTable}
  (laidOut : LaidOut rt s settled slices table) (counted : slices.length = settled.length)
  (names : Named s settled)

include laidOut counted names

/-- The slices list every identifier but the root's once. -/
theorem LaidOut.listed : table.allChildren.Perm (s.entries.tail.map entryId) := by
  have slicewise := flatten_perm_flatMap (fun idx slice found => (laidOut.isSlice idx slice found).perm)
  have positions := s.tree.flatMap_children_perm.map (s.valueAt entryId)
  rw [Snapshot.tree_size, map_valueAt_tail, List.map_flatMap] at positions
  rw [counted, names.length_eq] at slicewise
  rw [laidOut.allChildren_eq]
  exact slicewise.trans positions

theorem LaidOut.length_le : slices.flatten.length ≤ s.entries.length := by
  have same := (laidOut.listed counted names).length_eq
  rw [laidOut.allChildren_eq, List.length_map, List.length_tail] at same
  omega

/-- A recorded entry tells where its slice is. -/
theorem LaidOut.found (short : s.entries.length < 2 ^ 32) {idx : ℕ} {compact : CompactEntry}
    (stored : table.entries[idx]? = some compact) :
    ∃ slice, slices[idx]? = some slice ∧ IsSlice rt s table.entries idx slice ∧
      compact.childCount.toNat = slice.length ∧
        (compact.kind = .directory → compact.childStart.toNat = sliceStart slices idx) ∧
          (compact.kind ≠ .directory → slice = []) := by
  have inside := (List.getElem?_eq_some_iff.mp stored).1
  rw [laidOut.placed.length_eq] at inside
  rcases exists_getElem? inside with ⟨original, found⟩
  have inSlices : idx < slices.length := counted.symm ▸ inside
  rcases exists_getElem? inSlices with ⟨slice, sliceFound⟩
  have recorded := laidOut.recorded idx original slice found sliceFound
  rw [stored, Option.some.injEq] at recorded
  have fits := sliceStart_add_length_le sliceFound
  have total := laidOut.length_le counted names
  have isSlice := laidOut.isSlice idx slice sliceFound
  have counts : (UInt32.ofNat slice.length).toNat = slice.length :=
    UInt32.toNat_ofNat_of_lt' (by unfold UInt32.size; omega)
  have starts : (UInt32.ofNat (sliceStart slices idx)).toNat = sliceStart slices idx :=
    UInt32.toNat_ofNat_of_lt' (by unfold UInt32.size; omega)
  refine ⟨slice, sliceFound, ⟨isSlice.perm, isSlice.sorted.imp ?_⟩, ?_, ?_, ?_⟩
  · exact fun before => laidOut.placed.before_iff.mpr before
  · rw [recorded]
    exact counts
  · intro directory
    rw [recorded] at directory ⊢
    have sameKind : original.kind = .directory := directory
    simp [CompactEntry.withSlice, startWord, sameKind, starts]
  · intro plain
    rw [recorded] at plain
    rcases names.named idx original found with ⟨entry, at_, _, sameKind⟩
    have childless := s.children_eq_nil at_ (sameKind ▸ plain)
    have none := isSlice.perm
    rw [childIdsAt, childless, List.map_nil] at none
    exact none.eq_nil

theorem LaidOut.slice (short : s.entries.length < 2 ^ 32) {idx : ℕ} {compact : CompactEntry}
    (stored : table.entries[idx]? = some compact) :
    ∃ slice, IsSlice rt s table.entries idx slice ∧ compact.childCount.toNat = slice.length ∧
      (compact.kind = .directory →
        sliceAt table.allChildren compact.childStart.toNat compact.childCount.toNat = .ok slice) := by
  rcases laidOut.found counted names short stored with
    ⟨slice, found, isSlice, count, start, _⟩
  refine ⟨slice, isSlice, count, ?_⟩
  intro directory
  have fits := sliceStart_add_length_le found
  rw [sliceAt, start directory, count, laidOut.allChildren_eq, if_pos fits,
    take_drop_sliceStart found]

theorem LaidOut.tiled (short : s.entries.length < 2 ^ 32) {position : ℕ}
    (bound : position < table.allChildren.length) :
    ∃! idx : ℕ, ∃ compact : CompactEntry, table.entries[idx]? = some compact ∧
      compact.kind = .directory ∧ compact.childStart.toNat ≤ position ∧
        position < compact.childStart.toNat + compact.childCount.toNat := by
  rw [laidOut.allChildren_eq] at bound
  rcases existsUnique_slice bound with ⟨idx, ⟨slice, found, lower, upper⟩, only⟩
  refine ⟨idx, ?_, ?_⟩
  · have inside : idx < table.entries.length := by
      rw [laidOut.placed.length_eq, ← counted]
      exact (List.getElem?_eq_some_iff.mp found).1
    have stored := List.getElem?_eq_getElem inside
    generalize table.entries[idx] = compact at stored
    rcases laidOut.found counted names short stored with
      ⟨other, otherFound, _, count, start, bare⟩
    rw [found, Option.some.injEq] at otherFound
    subst otherFound
    by_cases directory : compact.kind = .directory
    · refine ⟨compact, stored, directory, ?_, ?_⟩
      · rw [start directory]
        exact lower
      · rw [start directory, count]
        exact upper
    · rw [bare directory, List.length_nil] at upper
      omega
  · rintro other ⟨compact, stored, directory, below, above⟩
    rcases laidOut.found counted names short stored with
      ⟨slice, found, _, count, start, _⟩
    rw [start directory] at below above
    rw [count] at above
    exact only other ⟨slice, found, below, above⟩

end Table

/-! ### Lookup by identifier -/

theorem toNat_sub_one {id : UInt32} (positive : id ≠ 0) : (id - 1).toNat + 1 = id.toNat := by
  have nonzero : id.toNat ≠ 0 := fun zero => positive (UInt32.toNat_inj.mp zero)
  have word := id.toNat_lt
  have one : (1 : UInt32).toNat = 1 := rfl
  rw [UInt32.toNat_sub_of_le _ _ (UInt32.le_iff_toNat_le.mpr (by omega)), one]
  omega

/-- Both forms of the store resolve every identifier but `0`. -/
theorem storageOf_get_iff (core : Core builder s.entries) {entries : List CompactEntry}
    (names : Named s entries) {id : UInt32} {compact : CompactEntry} :
    (builder.storageOf entries).get id = some compact ↔
      id ≠ 0 ∧ compact ∈ entries ∧ compact.id = id := by
  unfold storageOf EntryStorage.get
  by_cases zero : id = 0
  · simp [zero]
  · rw [if_neg zero]
    cases dense : builder.isDense with
    | true =>
        have sequence := core.indexed.dense dense
        simp only [if_true]
        constructor
        · intro found
          rcases names.named _ _ found with ⟨entry, at_, named, _⟩
          refine ⟨zero, List.mem_of_getElem? found, UInt32.toNat_inj.mp ?_⟩
          rw [named, sequence _ _ at_, toNat_sub_one zero]
        · rintro ⟨_, mem, rfl⟩
          rcases List.mem_iff_getElem?.mp mem with ⟨idx, found⟩
          rcases names.named _ _ found with ⟨entry, at_, named, _⟩
          have position := sequence _ _ at_
          have shifted := toNat_sub_one zero
          rw [← named] at position
          have same : (compact.id - 1).toNat = idx := by omega
          rw [same, found]
    | false =>
        have locates := core.indexed.sparse dense
        simp only [Bool.false_eq_true, if_false]
        constructor
        · intro found
          rcases Option.bind_eq_some_iff.mp found with ⟨word, located, stored⟩
          rcases names.named _ _ stored with ⟨entry, at_, named, _⟩
          rcases (locates id word).mp located with ⟨other, otherAt, otherId⟩
          rw [at_, Option.some.injEq] at otherAt
          subst otherAt
          exact ⟨zero, List.mem_of_getElem? stored, named.trans otherId⟩
        · rintro ⟨_, mem, rfl⟩
          rcases List.mem_iff_getElem?.mp mem with ⟨idx, found⟩
          rcases names.named _ _ found with ⟨entry, at_, named, _⟩
          have inside := (List.getElem?_eq_some_iff.mp at_).1
          have room := core.wellFormed.length_le
          have located := locates.lookup_eq room at_
          have word : (UInt32.ofNat idx).toNat = idx :=
            UInt32.toNat_ofNat_of_lt' (by unfold UInt32.size; omega)
          rw [named]
          apply Option.bind_eq_some_iff.mpr
          exact ⟨_, located, by rw [word]; exact found⟩

/-! ### What `finish` returns -/

theorem Completed.finished {aggregates : Aggregates} (completed : Completed rt s aggregates)
    (core : Core builder s.entries) (nonempty : s.entries ≠ [])
    (storage_eq : graph.storage = builder.storageOf aggregates.entries)
    (rootId_eq : graph.rootId = 1) (objects_eq : graph.objects = aggregates.objects)
    (allChildren_eq : graph.allChildren = aggregates.allChildren) : Finished rt s graph := by
  rcases completed.phases with ⟨tagged, settled, slices, table, settles, counted, laidOut⟩
  have names := settles.names table
  have entriesEq : graph.storage.entries = aggregates.entries := by
    rw [storage_eq]
    unfold storageOf
    split <;> rfl
  have finalNames : Named s aggregates.entries := laidOut.placed.names names
  -- every final entry goes back to the entry phase 1 left at its position
  have origin : ∀ (idx : ℕ) (compact : CompactEntry), aggregates.entries[idx]? = some compact →
      ∃ before, tagged[idx]? = some before ∧ compact.fixed = before.fixed ∧
        SettledValues s idx compact := by
    intro idx compact stored
    rcases laidOut.placed.origin stored with ⟨original, start, count, found, rfl⟩
    have inside := (List.getElem?_eq_some_iff.mp found).1
    rw [settles.length_eq, ← table.tagged.length_eq] at inside
    have before := List.getElem?_eq_getElem inside
    rcases settles.settled idx _ before with ⟨other, otherFound, fixed, values⟩
    rw [found, Option.some.injEq] at otherFound
    subst otherFound
    exact ⟨_, before, fixed, { values with }⟩
  exact {
    short := completed.short
    affordable := completed.affordable
    length_eq := by rw [entriesEq, finalNames.length_eq]
    delivered := by
      intro idx entry at_
      rw [entriesEq]
      have inside := (List.getElem?_eq_some_iff.mp at_).1
      have stored := List.getElem?_eq_getElem (finalNames.length_eq.symm ▸ inside)
      rcases origin idx _ stored with ⟨before, found, fixed, values⟩
      rcases table.tagged.tagged idx entry at_ with ⟨objectIndex, known, other⟩
      rw [found, Option.some.injEq] at other
      subst other
      exact ⟨_, stored, {
        id_eq := (congrArg CompactEntry.id fixed).trans (entry.tagged_id objectIndex known)
        parentId_eq := (congrArg CompactEntry.parentId fixed).trans entry.compact_parentId
        name_eq := (congrArg CompactEntry.name fixed).trans entry.compact_name
        kind_eq := (congrArg CompactEntry.kind fixed).trans (entry.tagged_kind objectIndex known)
        values := values }⟩
    owned := by
      intro compact compactMem used
      rw [entriesEq] at compactMem
      rcases List.mem_iff_getElem?.mp compactMem with ⟨idx, stored⟩
      rcases origin idx compact stored with ⟨before, found, fixed, _⟩
      have kept := congrArg CompactEntry.objectIndex fixed
      have index : compact.objectIndex = before.objectIndex := kept
      rw [index] at used ⊢
      rw [objects_eq]
      exact table.bounded before (List.mem_of_getElem? found) used
    get_iff := by
      intro id compact
      rw [entriesEq, storage_eq]
      exact storageOf_get_iff core finalNames
    rootId_eq := by rw [rootId_eq, if_neg nonempty]
    slice := by
      intro idx compact stored
      rw [entriesEq] at stored ⊢
      rw [allChildren_eq]
      exact laidOut.slice counted names completed.short stored
    tiled := by
      intro position bound
      rw [entriesEq]
      rw [allChildren_eq] at bound
      exact laidOut.tiled counted names completed.short bound
    listed := by
      rw [allChildren_eq]
      exact laidOut.listed counted names }

theorem Finished.empty (none : s.entries = []) (term : TerminalObservation) :
    Finished rt s (builder.emptyGraph term) where
  short := by simp [none]
  affordable := by simp [Affordable, none]
  length_eq := by simp [emptyGraph, EntryStorage.entries, none]
  delivered := by simp [none]
  owned := by simp [emptyGraph, EntryStorage.entries]
  get_iff := by simp [emptyGraph, EntryStorage.get, EntryStorage.entries]
  rootId_eq := by simp [emptyGraph, none]
  slice := by simp [emptyGraph, EntryStorage.entries]
  tiled := by simp [emptyGraph]
  listed := by simp [emptyGraph, none]

namespace Reached

variable (reached : Reached target builder records)

include reached

theorem builder_entries_eq_nil_iff : builder.entries = [] ↔ entriesOf records = [] := by
  rw [reached.represents.core.entries_eq, List.map_eq_nil_iff]

/-- Every graph a builder returns presents the accepted entries and carries the
accepted terminal record. -/
theorem finished (ran : builder.finish rt = .ok (.ok graph)) :
    Finished rt reached.snapshot graph ∧ builder.terminal = some graph.terminal := by
  unfold finish at ran
  split at ran
  · cases ran
  · next term ended =>
      split at ran
      · next none =>
          split at ran
          · cases ran
          · simp only [Except.ok.injEq] at ran
            subst ran
            exact ⟨Finished.empty (reached.builder_entries_eq_nil_iff.mp none) term, ended⟩
      · next some =>
          rcases Checked.bind_eq_ok.mp ran with ⟨aggregates, computed, result⟩
          simp only [Checked.pure_eq_ok, Except.ok.injEq] at result
          subst result
          have nonempty : entriesOf records ≠ [] :=
            fun none => some (reached.builder_entries_eq_nil_iff.mpr none)
          have completed := (computeAggregates_spec rt reached.represents
            (s := reached.snapshot) rfl (List.length_pos_iff.mpr nonempty)).2 aggregates computed
          refine ⟨completed.finished reached.represents.core nonempty rfl rfl
            rfl rfl, ended⟩

/-- When a builder that has its terminal record returns from `finish`. -/
theorem finish_returns_iff (rt : Runtime) (ended : builder.terminal.isSome) :
    (∃ result, builder.finish rt = .ok result) ↔
      entriesOf records = [] ∨
        (entriesOf records).length < 2 ^ 32 ∧ Affordable reached.snapshot := by
  rcases Option.isSome_iff_exists.mp ended with ⟨term, terminal⟩
  unfold finish
  rw [terminal]
  by_cases none : entriesOf records = []
  · simp only [reached.builder_entries_eq_nil_iff.mpr none, none, if_true, true_or, iff_true]
    split
    · exact ⟨_, rfl⟩
    · exact ⟨_, rfl⟩
  · have some : builder.entries ≠ [] := fun empty => none (reached.builder_entries_eq_nil_iff.mp empty)
    have spec := computeAggregates_spec rt reached.represents (s := reached.snapshot) rfl
      (List.length_pos_iff.mpr none)
    simp only [if_neg some, none, false_or]
    constructor
    · rintro ⟨result, ran⟩
      rcases Checked.bind_eq_ok.mp ran with ⟨aggregates, computed, _⟩
      have completed := spec.2 aggregates computed
      exact ⟨completed.short, completed.affordable⟩
    · rintro ⟨short, affordable⟩
      rcases spec.1 short affordable with ⟨aggregates, computed⟩
      rw [computed, Checked.ok_bind]
      exact ⟨_, rfl⟩

end Reached

/-! ### Building from a stream -/

theorem buildFromReader_eq_ok {result : Except GraphBuildError DirectoryGraph}
    (ran : buildFromReader rt target records = .ok result) :
    (∃ err, result = .error err) ∨
      ∃ builder, Reached target builder records ∧ builder.finish rt = .ok result := by
  rcases Checked.bind_eq_ok.mp ran with ⟨⟨answer, builder⟩, fed, settled⟩
  cases answer with
  | error err =>
      simp only [Checked.pure_eq_ok, Except.ok.injEq] at settled
      exact Or.inl ⟨err, settled.symm⟩
  | ok accepted => exact Or.inr ⟨builder, Reached.of_ingestAll fed, settled⟩

/-- Whether a build has returned a graph. -/
def isBuilt : Checked (Except GraphBuildError DirectoryGraph) → Bool
  | .ok (.ok _) => true
  | _ => false

theorem exists_of_isBuilt (built : isBuilt (buildFromReader rt target records) = true) :
    ∃ builder graph, Reached target builder records ∧ builder.finish rt = .ok (.ok graph) := by
  unfold isBuilt at built
  split at built
  · next graph ran =>
      rcases buildFromReader_eq_ok ran with ⟨err, none⟩ | ⟨builder, reached, finished⟩
      · cases none
      · exact ⟨builder, graph, reached, finished⟩
  · cases built

/-! ### Sample streams -/

namespace Sample

/-- Lowercase by characters, hash maps in insertion order. -/
def runtime : Runtime where
  toLowercase := fun text => String.ofList (text.toList.map Char.toLower)
  fileObjectOrder := .listed
  dirObjectOrder := .listed

def objectIdentity (fileId : ℕ) : ObjectIdentity where
  volumeGuid := Vector.replicate 16 0
  fileId := BitVec.ofNat 128 fileId

def directory (entryId parentId : UInt32) (name : String) : ObservationRecord :=
  .directory {
    entryId, parentId, name
    fileAttributes := 16
    reparseTag := 0
    creationTimeUtcMs := 0
    lastWriteTimeUtcMs := 0
    lastAccessTimeUtcMs := 0
    objectId := none
    allocatedSize := none
    totalLinkCount := .notApplicable }

def file (entryId parentId : UInt32) (name : String) (logicalSize allocatedSize : UInt64)
    (objectId : Option ObjectIdentity) : ObservationRecord :=
  .file {
    entryId, parentId, name, logicalSize, objectId
    allocatedSize := some allocatedSize
    fileAttributes := 32
    reparseTag := 0
    creationTimeUtcMs := 0
    lastWriteTimeUtcMs := 0
    lastAccessTimeUtcMs := 0
    totalLinkCount := .notObserved }

def terminal (totalDirectories totalFiles totalLogicalBytes totalAllocatedBytes : UInt64) :
    TerminalObservation where
  outcome := .finished
  totalDirectories := totalDirectories
  totalFiles := totalFiles
  totalLogicalBytes := totalLogicalBytes
  totalAllocatedBytes := totalAllocatedBytes
  coverageGapCount := 0
  durationMs := 0

/-- Two directories that share a file, and one more file. -/
def shared : List ObservationRecord := [
  directory 1 0 "c:", directory 2 1 "left", directory 3 1 "right",
  file 4 2 "one" 5 100 (some (objectIdentity 1)), file 5 3 "alias" 5 100 (some (objectIdentity 1)),
  file 6 3 "other" 9 40 none, .terminal (terminal 3 3 19 240)]

theorem isBuilt_shared : isBuilt (buildFromReader runtime "c:" shared) = true := by
  decide +kernel

end Sample

end GraphBuilder

end PigTree
