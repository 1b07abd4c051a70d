import PigTree.Engine.Normalization

/-!
# The object records in full

What phase 1 leaves behind, field by field: the record behind every entry is the
one its evidence gives, two entries share a record exactly when they carry one
identity, the size flags say which allocations are observed and undisputed, and
the graph-wide flag and the number of indeterminate objects summarise the rest.
None of it depends on the order in which the maps are visited.
-/

namespace PigTree

open Foundation EntryObservation

/-- Whose record stands behind an entry: that of its identity, or its own. -/
def holderOf (idx : ℕ) (entry : EntryObservation) : ObjectKey :=
  entry.fileIdentity.elim (.alone idx) .shared

/-- The record an object index refers to. -/
def recordAt (objects : List ObjectRecord) (objectIndex : UInt32) : Option ObjectRecord :=
  if objectIndex = noObject then none else objects[objectIndex.toNat]?

namespace GraphBuilder

/-- A file without identity whose links outside the target cannot be told. -/
def isIndeterminate (entry : EntryObservation) : Bool :=
  isAnonymous entry && ExternalReferenceStatus.derive entry.linkCount 1 = .indeterminate

end GraphBuilder

namespace Snapshot

/-- Objects whose links outside the target cannot be told. -/
def indeterminateObjects (s : Snapshot) : ℕ :=
  ((s.entries.filterMap fileIdentity).toFinset.filter
    (fun identity => s.linkStatusOf identity = .indeterminate)).card +
  s.entries.countP GraphBuilder.isIndeterminate

/-- Every allocation is observed and none is disputed. -/
def allocationsKnown (s : Snapshot) : Bool :=
  !s.entries.any allocationMissing && !s.entries.any s.disputed

end Snapshot

namespace GraphBuilder

variable {builder : GraphBuilder} {s : Snapshot}

/-! ### The loop over the file objects -/

/-- The objects of `seen` are recorded, and their conflicts are marked. -/
structure FileLedger (builder : GraphBuilder) (s : Snapshot) (seen : List ObjectIdentity)
    (state : Normalized) : Prop where
  objects_eq : state.objects = seen.map s.sharedObject
  flags : ∀ (idx : ℕ) (entry : EntryObservation) (compact : CompactEntry),
    s.entries[idx]? = some entry → state.entries[idx]? = some compact →
      compact.allocatedSizeKnown = (entry.compact.allocatedSizeKnown &&
        !entry.fileIdentity.any (fun identity => identity ∈ seen ∧ s.Contradicted identity))
  known_eq : state.allocatedBytesKnown =
    (builder.allocatedBytesKnown && !seen.any (fun identity => s.Contradicted identity))
  indeterminate_eq : state.indeterminateObjects =
    UInt64.ofNat (seen.countP (fun identity => s.linkStatusOf identity = .indeterminate))

theorem FileLedger.start (core : Core builder s.entries) :
    FileLedger builder s [] builder.initialNormalized where
  objects_eq := rfl
  flags := by
    intro idx entry compact found stored
    rw [initialNormalized, core.getElem?_entries found, Option.some.injEq] at stored
    subst stored
    cases entry.fileIdentity <;> simp
  known_eq := by simp [initialNormalized]
  indeterminate_eq := rfl

theorem FileLedger.record (core : Core builder s.entries) (tally : Tally builder s.entries)
    {seen : List ObjectIdentity} {state next : Normalized} {identity : ObjectIdentity}
    (ledger : FileLedger builder s seen state) (tagged : TaggedBy s.entries state.entries)
    (ran : builder.normalizeFileObject state (identity, fileIds s.entries identity) = .ok next) :
    FileLedger builder s (seen ++ [identity]) next := by
  have ids := fileIds_aliases s identity
  have known : ∀ id ∈ fileIds s.entries identity, id ∈ s.entries.map entryId := by
    intro id idMem
    rw [ids] at idMem
    exact List.map_subset _ (List.filter_subset_self _) idMem
  have nodup : (fileIds s.entries identity).Nodup := by
    rw [ids]
    exact (List.filter_sublist.map _).nodup s.wellFormed.nodup_ids
  have owns : ∀ entry ∈ s.entries,
      entry.entryId ∈ fileIds s.entries identity ↔ entry.fileIdentity = some identity :=
    fun entry entryMem => mem_fileIds_iff entryMem identity
  have count : (fileIds s.entries identity).length = (s.aliases identity).length := by
    rw [ids, List.length_map]
  have conflict := s.hasAllocConflict_allocEvidence identity
  simp only [normalizeFileObject, resolveAllocs_eq core identity tagged, Checked.ok_bind,
    Checked.bind_eq_ok, Checked.pure_eq_ok, Except.ok.injEq] at ran
  rcases ran with ⟨flagged, flaggedRan, updated, updatedRan, rfl⟩
  -- the flags after the conflict has been marked
  have marked : ∀ (idx : ℕ) (entry : EntryObservation) (compact : CompactEntry),
      s.entries[idx]? = some entry → flagged[idx]? = some compact →
        compact.allocatedSizeKnown = (entry.compact.allocatedSizeKnown &&
          !entry.fileIdentity.any
            (fun other => other ∈ seen ++ [identity] ∧ s.Contradicted other)) := by
    intro idx entry compact found stored
    rcases tagged.tagged idx entry found with ⟨objectIndex, sized, before⟩
    have old := ledger.flags idx entry _ found before
    have entryMem := List.mem_of_getElem? found
    unfold flagConflict at flaggedRan
    rw [conflict] at flaggedRan
    by_cases contradicted : s.Contradicted identity
    · rw [if_pos (by simpa using contradicted)] at flaggedRan
      rcases core.updateEntries_ok known nodup
        (fun entry => { entry with allocatedSizeKnown := false }) tagged.length_eq with
        ⟨entries, ran, _, updates⟩
      rw [flaggedRan, Except.ok.injEq] at ran
      subst ran
      rw [updates idx entry _ found before, Option.some.injEq] at stored
      by_cases owned : entry.fileIdentity = some identity
      · rw [if_pos ((owns entry entryMem).mpr owned)] at stored
        simp [← stored, owned, contradicted]
      · rw [if_neg (fun mem => owned ((owns entry entryMem).mp mem))] at stored
        rw [← stored, old]
        cases identified : entry.fileIdentity with
        | none => rfl
        | some other =>
            have different : other ≠ identity := fun same => owned (same ▸ identified)
            simp [different]
    · rw [if_neg (by simpa using contradicted), Except.ok.injEq] at flaggedRan
      subst flaggedRan
      rw [before, Option.some.injEq] at stored
      rw [← stored, old]
      cases identified : entry.fileIdentity with
      | none => rfl
      | some other =>
          by_cases same : other = identity
          · subst same
            simp [contradicted]
          · simp [same]
  have retagged : TaggedBy s.entries flagged := by
    unfold flagConflict at flaggedRan
    split at flaggedRan
    · rcases core.updateEntries_ok known nodup
        (fun entry => { entry with allocatedSizeKnown := false }) tagged.length_eq with
        ⟨entries, ran, length_eq, updates⟩
      rw [flaggedRan, Except.ok.injEq] at ran
      subst ran
      exact tagged.update (fun entry objectIndex _ => ⟨objectIndex, false, rfl⟩) length_eq updates
    · exact (Except.ok.inj flaggedRan) ▸ tagged
  exact {
    objects_eq := by
      rw [ledger.objects_eq, List.map_append, resolveLinks_eq tally, count,
        (s.sees_allocEvidence identity).minAlloc]
      rfl
    flags := by
      intro idx entry compact found stored
      rcases retagged.tagged idx entry found with ⟨objectIndex, sized, before⟩
      rcases core.updateEntries_ok known nodup
        (fun entry => { entry with objectIndex := UInt32.ofNat state.objects.length })
        retagged.length_eq with ⟨entries, ran, _, updates⟩
      rw [updatedRan, Except.ok.injEq] at ran
      subst ran
      simp only at stored
      rw [updates idx entry _ found before, Option.some.injEq] at stored
      rw [← marked idx entry _ found before, ← stored]
      split <;> rfl
    known_eq := by
      simp only [ledger.known_eq, conflict, List.any_append, List.any_cons, List.any_nil,
        Bool.or_false, Bool.not_or, Bool.and_assoc]
    indeterminate_eq := by
      simp only [ledger.indeterminate_eq, resolveLinks_eq tally, count, List.countP_append,
        List.countP_singleton]
      by_cases indeterminate : s.linkStatusOf identity = .indeterminate
      · have status : linkStatus (s.linkEvidence identity)
            (UInt32.ofNat (s.aliases identity).length) = .indeterminate := indeterminate
        simp [status, indeterminate]
      · have status : linkStatus (s.linkEvidence identity)
            (UInt32.ofNat (s.aliases identity).length) ≠ .indeterminate := indeterminate
        simp [status, indeterminate] }

/-! ### The loop over the directory objects -/

/-- What the loop over the directories adds to the result of the first loop. -/
structure DirLedger (files : Normalized) (seen : List (UInt32 × ObjectIdentity))
    (state : Normalized) : Prop where
  objects_eq : state.objects = files.objects ++ seen.map (fun item => directoryObject item.2)
  length_eq : state.entries.length = files.entries.length
  flags : ∀ (idx : ℕ) (before after : CompactEntry), files.entries[idx]? = some before →
    state.entries[idx]? = some after → after.allocatedSizeKnown = before.allocatedSizeKnown
  known_eq : state.allocatedBytesKnown = files.allocatedBytesKnown
  indeterminate_eq : state.indeterminateObjects = files.indeterminateObjects

theorem DirLedger.start (files : Normalized) : DirLedger files [] files where
  objects_eq := by simp
  length_eq := rfl
  flags := by
    intro idx before after found stored
    rw [found, Option.some.injEq] at stored
    rw [stored]
  known_eq := rfl
  indeterminate_eq := rfl

theorem DirLedger.record {files state next : Normalized} {seen : List (UInt32 × ObjectIdentity)}
    {item : UInt32 × ObjectIdentity} (ledger : DirLedger files seen state)
    (ran : builder.normalizeDirObject state item = .ok next) :
    DirLedger files (seen ++ [item]) next := by
  simp only [normalizeDirObject, Checked.bind_eq_ok, Checked.pure_eq_ok, Except.ok.injEq] at ran
  rcases ran with ⟨position, _, modified, modifiedRan, rfl⟩
  have inside : position < state.entries.length := by
    by_contra outside
    simp [modifyAt, outside] at modifiedRan
  rw [modifyAt_of_lt inside, Except.ok.injEq] at modifiedRan
  subst modifiedRan
  exact {
    objects_eq := by simp [ledger.objects_eq, directoryObject]
    length_eq := by simpa using ledger.length_eq
    flags := by
      intro idx before after found stored
      have bound := (List.getElem?_eq_some_iff.mp found).1
      rw [← ledger.length_eq] at bound
      rcases exists_getElem? bound with ⟨middle, middleFound⟩
      rw [← ledger.flags idx before middle found middleFound]
      simp only [List.getElem?_modify, middleFound, Option.map_eq_map, Option.map_some,
        Option.some.injEq] at stored
      rw [← stored]
      split <;> rfl
    known_eq := ledger.known_eq
    indeterminate_eq := ledger.indeterminate_eq }

/-! ### The loop over the files without identity -/

theorem Tally.createsObject_eq (tally : Tally builder s.entries) {entry : EntryObservation}
    (entryMem : entry ∈ s.entries) :
    builder.createsObject entry = (isAnonymous entry && entry.linkCount ≠ .notObserved) := by
  rw [createsObject, linkOf_eq tally entryMem]

theorem Tally.anonymousObject_eq (tally : Tally builder s.entries) {entry : EntryObservation}
    (entryMem : entry ∈ s.entries) : builder.anonymousObject entry = entry.ownObject := by
  rw [anonymousObject, linkOf_eq tally entryMem]
  rfl

/-- The last loop leaves the graph-wide flag alone and counts the indeterminate files. -/
theorem normalizeAnonymous_counts (tally : Tally builder s.entries) {base : Normalized}
    (tagged : TaggedBy s.entries base.entries)
    (unassigned : ∀ (idx : ℕ) (entry : EntryObservation) (compact : CompactEntry),
      s.entries[idx]? = some entry → base.entries[idx]? = some compact → entry.kind = .file →
        (compact.objectIndex = noObject ↔ entry.fileIdentity = none)) :
    let final := base.entries.foldl builder.normalizeAnonymousFile { base with entries := [] }
    final.allocatedBytesKnown = base.allocatedBytesKnown ∧
      final.indeterminateObjects =
        base.indeterminateObjects + UInt64.ofNat (s.entries.countP isIndeterminate) := by
  intro final
  suffices loop : final.allocatedBytesKnown = base.allocatedBytesKnown ∧
      final.indeterminateObjects = base.indeterminateObjects +
        UInt64.ofNat ((s.entries.take base.entries.length).countP isIndeterminate) by
    rw [tagged.length_eq, List.take_length] at loop
    exact loop
  refine foldl_invariant base.entries (fun seen (state : Normalized) =>
    state.allocatedBytesKnown = base.allocatedBytesKnown ∧
      state.indeterminateObjects = base.indeterminateObjects +
        UInt64.ofNat ((s.entries.take seen.length).countP isIndeterminate)) ?_ ?_
  · simp
  · intro seen compact rest state split holds
    rcases holds with ⟨known, count⟩
    have inside : seen.length < s.entries.length := by
      rw [← tagged.length_eq, split]
      simp
    rcases exists_getElem? inside with ⟨entry, found⟩
    have entryMem := List.mem_of_getElem? found
    have stored : base.entries[seen.length]? = some compact := by simp [split]
    rcases tagged.tagged _ _ found with ⟨objectIndex, sized, before⟩
    rw [stored, Option.some.injEq] at before
    have kindEq : compact.kind = entry.kind := by simp [before]
    have linkEq : builder.linkOf compact.id = entry.linkCount := by
      rw [before, tagged_id, linkOf_eq tally entryMem]
    have grows : (s.entries.take (seen ++ [compact]).length).countP isIndeterminate =
        (s.entries.take seen.length).countP isIndeterminate +
          if isIndeterminate entry then 1 else 0 := by
      rw [List.length_append, List.length_singleton, List.take_add_one, found, List.countP_append]
      simp
    have anonymous : (compact.kind = .file ∧ compact.objectIndex = noObject) ↔
        isAnonymous entry = true := by
      simp only [kindEq, isAnonymous, Bool.and_eq_true, decide_eq_true_eq,
        Option.isNone_iff_eq_none]
      exact and_congr_right (fun isFile => unassigned _ _ _ found stored isFile)
    rw [grows]
    unfold normalizeAnonymousFile
    by_cases isAnon : isAnonymous entry = true
    · rw [if_pos (anonymous.mpr isAnon), linkEq]
      by_cases indeterminate : ExternalReferenceStatus.derive entry.linkCount 1 = .indeterminate
      · have counted : isIndeterminate entry = true := by
          simp [isIndeterminate, isAnon, indeterminate]
        simp only [indeterminate, counted, if_true]
        split <;> exact ⟨known, by simp [count, add_assoc]⟩
      · have counted : isIndeterminate entry = false := by
          simp [isIndeterminate, indeterminate]
        simp only [indeterminate, counted, if_false]
        split <;> exact ⟨known, by simp [count]⟩
    · rw [if_neg (fun both => isAnon (anonymous.mp both))]
      have counted : isIndeterminate entry = false := by simp [isIndeterminate, isAnon]
      exact ⟨known, by simp [count, counted]⟩

/-! ### The three loops together -/

/-- Which position among the objects belongs to a holder. -/
inductive ObjectSlot (builder : GraphBuilder) (s : Snapshot) (files : List ObjectIdentity)
    (dirs : List UInt32) : ℕ → ObjectKey → Prop
  | shared (identity : ObjectIdentity) (mem : identity ∈ files) :
      ObjectSlot builder s files dirs (files.idxOf identity) (.shared identity)
  | directory (idx : ℕ) (dir : DirectoryObservation) (found : s.entries[idx]? = some (.directory dir))
      (mem : dir.entryId ∈ dirs) :
      ObjectSlot builder s files dirs (files.length + dirs.idxOf dir.entryId) (.alone idx)
  | own (idx : ℕ) (entry : EntryObservation) (found : s.entries[idx]? = some entry)
      (creates : builder.createsObject entry = true) :
      ObjectSlot builder s files dirs
        (files.length + dirs.length + (s.entries.take idx).countP builder.createsObject)
        (.alone idx)

section Slots

variable {files : List ObjectIdentity} {dirs : List UInt32} {slot other : ℕ}
  {key otherKey : ObjectKey}

theorem kind_of_createsObject {entry : EntryObservation}
    (creates : builder.createsObject entry = true) :
    entry.kind = .file ∧ entry.fileIdentity = none := by
  simp only [createsObject, isAnonymous, Bool.and_eq_true, decide_eq_true_eq,
    Option.isNone_iff_eq_none] at creates
  exact creates.1

/-- The number of earlier objects of their own orders the files that have one. -/
theorem countP_take_inj {idx otherIdx : ℕ} {entry otherEntry : EntryObservation}
    (found : s.entries[idx]? = some entry) (creates : builder.createsObject entry = true)
    (otherFound : s.entries[otherIdx]? = some otherEntry)
    (otherCreates : builder.createsObject otherEntry = true) :
    (s.entries.take idx).countP builder.createsObject =
      (s.entries.take otherIdx).countP builder.createsObject ↔ idx = otherIdx := by
  constructor
  · intro same
    rcases Nat.lt_trichotomy idx otherIdx with before | equal | after
    · have grows := countP_take_lt found creates before
      omega
    · exact equal
    · have grows := countP_take_lt otherFound otherCreates after
      omega
  · rintro rfl
    rfl

/-- Different holders have different slots. -/
theorem ObjectSlot.inj (left : ObjectSlot builder s files dirs slot key)
    (right : ObjectSlot builder s files dirs other otherKey) : slot = other ↔ key = otherKey := by
  have apart : ∀ identity ∈ files, files.idxOf identity < files.length :=
    fun _ mem => List.idxOf_lt_length_of_mem mem
  have within : ∀ id ∈ dirs, dirs.idxOf id < dirs.length :=
    fun _ mem => List.idxOf_lt_length_of_mem mem
  cases left with
  | shared identity mem =>
      have position := apart identity mem
      cases right with
      | shared otherIdentity otherMem => simp [List.idxOf_inj mem]
      | directory idx dir found dirMem =>
          simp only [reduceCtorEq, iff_false]
          omega
      | own idx entry found creates =>
          simp only [reduceCtorEq, iff_false]
          omega
  | directory idx dir found dirMem =>
      have position := within dir.entryId dirMem
      cases right with
      | shared otherIdentity otherMem =>
          have otherPosition := apart otherIdentity otherMem
          simp only [reduceCtorEq, iff_false]
          omega
      | directory otherIdx otherDir otherFound otherMem =>
          rw [Nat.add_left_cancel_iff, List.idxOf_inj dirMem, ObjectKey.alone.injEq]
          constructor
          · intro same
            exact (s.wellFormed.indexOf_eq found).symm.trans
              ((congrArg (indexOf s.entries) same).trans (s.wellFormed.indexOf_eq otherFound))
          · rintro rfl
            rw [found, Option.some.injEq, EntryObservation.directory.injEq] at otherFound
            rw [otherFound]
      | own otherIdx entry otherFound creates =>
          have differ : idx ≠ otherIdx := by
            rintro rfl
            rw [found, Option.some.injEq] at otherFound
            have isFile := (kind_of_createsObject creates).1
            rw [← otherFound] at isFile
            cases isFile
          simp only [ObjectKey.alone.injEq, differ, iff_false]
          omega
  | own idx entry found creates =>
      cases right with
      | shared otherIdentity otherMem =>
          have otherPosition := apart otherIdentity otherMem
          simp only [reduceCtorEq, iff_false]
          omega
      | directory otherIdx dir otherFound dirMem =>
          have position := within dir.entryId dirMem
          have differ : idx ≠ otherIdx := by
            rintro rfl
            rw [found, Option.some.injEq] at otherFound
            have isFile := (kind_of_createsObject creates).1
            rw [otherFound] at isFile
            cases isFile
          simp only [ObjectKey.alone.injEq, differ, iff_false]
          omega
      | own otherIdx otherEntry otherFound otherCreates =>
          rw [Nat.add_left_cancel_iff, ObjectKey.alone.injEq]
          exact countP_take_inj found creates otherFound otherCreates

end Slots

/-- An entry without a record, or one whose index is the slot of its holder. -/
inductive Indexed (builder : GraphBuilder) (s : Snapshot) (files : List ObjectIdentity)
    (dirs : List UInt32) (objects : List ObjectRecord) (idx : ℕ) (entry : EntryObservation) :
    UInt32 → Prop
  | none (unrecorded : s.objectOf entry = none) :
      Indexed builder s files dirs objects idx entry noObject
  | slot (position : ℕ) (record : ObjectRecord) (recorded : s.objectOf entry = some record)
      (found : objects[position]? = some record)
      (slot : ObjectSlot builder s files dirs position (holderOf idx entry)) :
      Indexed builder s files dirs objects idx entry (UInt32.ofNat position)

/-- What phase 1 leaves behind. -/
structure Recorded (s : Snapshot) (state : Normalized) : Prop where
  tagged : TaggedBy s.entries state.entries
  flags : ∀ (idx : ℕ) (entry : EntryObservation) (compact : CompactEntry),
    s.entries[idx]? = some entry → state.entries[idx]? = some compact →
      compact.allocatedSizeKnown = s.leafKnown entry
  recorded : ∀ (idx : ℕ) (entry : EntryObservation) (compact : CompactEntry),
    s.entries[idx]? = some entry → state.entries[idx]? = some compact →
      recordAt state.objects compact.objectIndex = s.objectOf entry
  unrecorded : ∀ (idx : ℕ) (entry : EntryObservation) (compact : CompactEntry),
    s.entries[idx]? = some entry → state.entries[idx]? = some compact →
      (compact.objectIndex = noObject ↔ s.objectOf entry = none)
  held : ∀ (idx other : ℕ) (entry otherEntry : EntryObservation) (left right : CompactEntry),
    s.entries[idx]? = some entry → s.entries[other]? = some otherEntry →
      state.entries[idx]? = some left → state.entries[other]? = some right →
        left.objectIndex ≠ noObject → right.objectIndex ≠ noObject →
          (left.objectIndex = right.objectIndex ↔ holderOf idx entry = holderOf other otherEntry)
  objects_le : state.objects.length ≤ s.entries.length
  known_eq : state.allocatedBytesKnown = s.allocationsKnown
  indeterminate_eq : state.indeterminateObjects = UInt64.ofNat s.indeterminateObjects

/-- The maps of a builder list the objects of its entries. -/
theorem dirVisit_iff (rt : Runtime) (tally : Tally builder s.entries) {dir : DirectoryObservation}
    (dirMem : EntryObservation.directory dir ∈ s.entries) (identity : ObjectIdentity) :
    (dir.entryId, identity) ∈ rt.dirObjectOrder.visit builder.dirObjectIds ↔
      dir.objectId = some identity := by
  rw [rt.dirObjectOrder.mem_visit, tally.dirObjects]
  constructor
  · rintro ⟨other, otherMem, named, identified⟩
    have same := s.wellFormed.eq_of_entryId otherMem dirMem named
    rw [EntryObservation.directory.injEq] at same
    exact same ▸ identified
  · intro identified
    exact ⟨dir, dirMem, rfl, identified⟩

section Results

variable (rt : Runtime)

/-- The identities with files, as the file map lists them. -/
def fileKeys (rt : Runtime) (builder : GraphBuilder) : List ObjectIdentity :=
  (rt.fileObjectOrder.visit builder.fileObjectMap).map Prod.fst

/-- The directories with an identity, as the directory map lists them. -/
def dirKeys (rt : Runtime) (builder : GraphBuilder) : List UInt32 :=
  (rt.dirObjectOrder.visit builder.dirObjectIds).map Prod.fst

/-- The records of the three loops, one after the other. -/
def allRecords (rt : Runtime) (builder : GraphBuilder) (s : Snapshot) : List ObjectRecord :=
  (fileKeys rt builder).map s.sharedObject ++
    (rt.dirObjectOrder.visit builder.dirObjectIds).map (fun item => directoryObject item.2) ++
    (s.entries.filter builder.createsObject).map ownObject

variable {rt}

theorem getElem?_allRecords_shared {identity : ObjectIdentity} (mem : identity ∈ fileKeys rt builder) :
    (allRecords rt builder s)[(fileKeys rt builder).idxOf identity]? =
      some (s.sharedObject identity) := by
  have inside := List.idxOf_lt_length_of_mem mem
  rw [allRecords, List.append_assoc, List.getElem?_append_left (by simpa using inside),
    List.getElem?_map, List.getElem?_idxOf mem]
  rfl

theorem getElem?_allRecords_directory (rt : Runtime) (tally : Tally builder s.entries) {dir : DirectoryObservation}
    (dirMem : EntryObservation.directory dir ∈ s.entries) {identity : ObjectIdentity}
    (identified : dir.objectId = some identity) :
    dir.entryId ∈ dirKeys rt builder ∧
      (allRecords rt builder s)[(fileKeys rt builder).length +
        (dirKeys rt builder).idxOf dir.entryId]? = some (directoryObject identity) := by
  have visited := (dirVisit_iff rt tally dirMem identity).mpr identified
  have mem : dir.entryId ∈ dirKeys rt builder := List.mem_map.mpr ⟨_, visited, rfl⟩
  refine ⟨mem, ?_⟩
  have inside := List.idxOf_lt_length_of_mem mem
  have found := List.getElem?_idxOf mem
  rw [dirKeys, List.getElem?_map] at found
  rcases Option.map_eq_some_iff.mp found with ⟨item, itemFound, named⟩
  -- the item listed at this position carries the directory's own identity
  have same : item.2 = identity := by
    have listed := List.mem_of_getElem? itemFound
    rw [← Prod.mk.eta (p := item), named] at listed
    have stored := (dirVisit_iff rt tally dirMem item.2).mp listed
    rw [identified, Option.some.injEq] at stored
    exact stored.symm
  have short : (dirKeys rt builder).idxOf dir.entryId <
      (rt.dirObjectOrder.visit builder.dirObjectIds).length := by
    simpa [dirKeys] using inside
  rw [allRecords, List.append_assoc, List.getElem?_append_right (by simp), List.length_map,
    Nat.add_sub_cancel_left, List.getElem?_append_left (by simpa using short), List.getElem?_map,
    dirKeys, itemFound, Option.map_some, same]

theorem getElem?_allRecords_own {idx : ℕ} {entry : EntryObservation}
    (found : s.entries[idx]? = some entry) (creates : builder.createsObject entry = true) :
    (allRecords rt builder s)[(fileKeys rt builder).length + (dirKeys rt builder).length +
      (s.entries.take idx).countP builder.createsObject]? = some entry.ownObject := by
  have before : ((fileKeys rt builder).map s.sharedObject ++
      (rt.dirObjectOrder.visit builder.dirObjectIds).map
        (fun item => directoryObject item.2)).length =
      (fileKeys rt builder).length + (dirKeys rt builder).length := by
    simp [dirKeys]
  rw [allRecords, List.getElem?_append_right (by rw [before]; exact Nat.le_add_right _ _), before,
    Nat.add_sub_cancel_left, List.getElem?_map, getElem?_filter_countP found creates]
  rfl

/-- Every entry of the result either has no record or is indexed by its slot. -/
theorem Assigned.entry_indexed (tally : Tally builder s.entries) {state : Normalized}
    (assigned : Assigned builder s (fileKeys rt builder) (dirKeys rt builder) state) {idx : ℕ}
    {entry : EntryObservation} {compact : CompactEntry} (found : s.entries[idx]? = some entry)
    (stored : state.entries[idx]? = some compact) :
    Indexed builder s (fileKeys rt builder) (dirKeys rt builder) (allRecords rt builder s) idx
      entry compact.objectIndex := by
  have index := assigned.indexed idx entry compact found stored
  have entryMem := List.mem_of_getElem? found
  rw [index]
  by_cases creates : builder.createsObject entry = true
  · rw [if_pos creates]
    have plain := kind_of_createsObject creates
    have linked := tally.createsObject_eq entryMem
    rw [creates] at linked
    have record : s.objectOf entry = some entry.ownObject := by
      cases entry with
      | directory dir => cases plain.1
      | special special => cases plain.1
      | file file =>
          have anonymous : file.objectId = none := plain.2
          have observed : file.totalLinkCount ≠ .notObserved := by
            exact of_decide_eq_true (Bool.and_eq_true_iff.mp linked.symm).2
          simp [Snapshot.objectOf, anonymous, observed]
    refine Indexed.slot _ _ record (getElem?_allRecords_own found creates) ?_
    rw [holderOf, plain.2]
    exact ObjectSlot.own idx entry found creates
  · rw [if_neg creates]
    cases entry with
    | special special => exact Indexed.none rfl
    | directory dir =>
        cases identified : dir.objectId with
        | none =>
            have unlisted : dir.entryId ∉ dirKeys rt builder := by
              intro mem
              rcases List.mem_map.mp mem with ⟨item, itemMem, named⟩
              have listed : (dir.entryId, item.2) ∈
                  rt.dirObjectOrder.visit builder.dirObjectIds := named ▸ itemMem
              rw [dirVisit_iff rt tally entryMem, identified] at listed
              cases listed
            simp only [dirObjectIndex, kind, entryId, if_true, unlisted, if_false]
            exact Indexed.none (by simp [Snapshot.objectOf, identified])
        | some identity =>
            have located := getElem?_allRecords_directory rt tally entryMem identified
            have record : s.objectOf (.directory dir) = some (directoryObject identity) := by
              simp [Snapshot.objectOf, identified]
            simp only [dirObjectIndex, kind, entryId, if_true, located.1]
            exact Indexed.slot _ _ record located.2 (ObjectSlot.directory idx dir found located.1)
    | file file =>
        cases identified : file.objectId with
        | none =>
            have linked := tally.createsObject_eq entryMem
            have silent : file.totalLinkCount = .notObserved := by
              by_contra observed
              apply creates
              rw [linked]
              simp [isAnonymous, kind, fileIdentity, identified, EntryObservation.linkCount,
                observed]
            simp only [dirObjectIndex, kind, reduceCtorEq, if_false, fileObjectIndex, fileIdentity,
              identified]
            exact Indexed.none (by simp [Snapshot.objectOf, identified, silent])
        | some identity =>
            have mem : identity ∈ fileKeys rt builder :=
              (listed_visits rt tally).files_complete _ entryMem identity identified
            simp only [dirObjectIndex, kind, reduceCtorEq, if_false, fileObjectIndex, fileIdentity,
              identified, mem, if_true]
            refine Indexed.slot _ _ (by simp [Snapshot.objectOf, identified])
              (getElem?_allRecords_shared mem) ?_
            have holder : holderOf idx (.file file) = .shared identity := by
              simp [holderOf, fileIdentity, identified]
            rw [holder]
            exact ObjectSlot.shared identity mem

end Results

/-- Phase 1 in three loops, with the ledgers of the first two. -/
theorem normalizeObjects_loops (rt : Runtime) (core : Core builder s.entries)
    (tally : Tally builder s.entries) {state : Normalized}
    (ran : builder.normalizeObjects rt = .ok state) :
    ∃ afterFiles afterDirs : Normalized, FileLedger builder s (fileKeys rt builder) afterFiles ∧
      FileObjects s (fileKeys rt builder) afterFiles ∧
      DirLedger afterFiles (rt.dirObjectOrder.visit builder.dirObjectIds) afterDirs ∧
      DirObjects s (fileKeys rt builder) (dirKeys rt builder) afterDirs ∧
      state = afterDirs.entries.foldl builder.normalizeAnonymousFile
        { afterDirs with entries := [] } := by
  rcases fileLoop_ok rt core tally (FileLedger builder s) (FileLedger.start core)
    (fun _ _ _ _ objects ledger => ledger.record core tally objects.tagged) with
    ⟨afterFiles, filesRan, fileObjects, fileLedger⟩
  rcases dirLoop_ok rt core tally fileObjects (DirLedger afterFiles) (DirLedger.start afterFiles)
    (fun _ _ _ _ ledger => ledger.record) with ⟨afterDirs, dirsRan, dirObjects, dirLedger⟩
  refine ⟨afterFiles, afterDirs, fileLedger, fileObjects, dirLedger, dirObjects, ?_⟩
  rw [normalizeObjects, filesRan, Checked.ok_bind, dirsRan, Checked.ok_bind, Checked.pure_eq_ok,
    Except.ok.injEq] at ran
  exact ran.symm

/-- The identities the file map lists are those of the entries. -/
theorem mem_fileKeys (rt : Runtime) (tally : Tally builder s.entries) {identity : ObjectIdentity} :
    identity ∈ fileKeys rt builder ↔ ∃ entry ∈ s.entries, entry.fileIdentity = some identity := by
  have listed := listed_visits rt tally
  constructor
  · intro mem
    exact listed.files_known identity mem
  · rintro ⟨entry, entryMem, identified⟩
    exact listed.files_complete entry entryMem identity identified

theorem toFinset_fileKeys (rt : Runtime) (tally : Tally builder s.entries) :
    (fileKeys rt builder).toFinset = (s.entries.filterMap fileIdentity).toFinset := by
  ext identity
  rw [List.mem_toFinset, mem_fileKeys rt tally, List.mem_toFinset, List.mem_filterMap]

/-- Some identity of the file map is contradicted exactly when some entry is disputed. -/
theorem any_fileKeys_contradicted (rt : Runtime) (tally : Tally builder s.entries) :
    (fileKeys rt builder).any (fun identity => s.Contradicted identity) =
      s.entries.any s.disputed := by
  apply Bool.eq_iff_iff.mpr
  simp only [List.any_eq_true, Snapshot.disputed, Option.any_eq_true, decide_eq_true_eq]
  constructor
  · rintro ⟨identity, mem, contradicted⟩
    rcases (mem_fileKeys rt tally).mp mem with ⟨entry, entryMem, identified⟩
    exact ⟨entry, entryMem, identity, identified, contradicted⟩
  · rintro ⟨entry, entryMem, identity, identified, contradicted⟩
    exact ⟨identity, (mem_fileKeys rt tally).mpr ⟨entry, entryMem, identified⟩, contradicted⟩

/-- Phase 1 leaves every record, flag and count in place. -/
theorem normalizeObjects_recorded (rt : Runtime) (core : Core builder s.entries)
    (tally : Tally builder s.entries) (short : s.entries.length < 2 ^ 32) {state : Normalized}
    (ran : builder.normalizeObjects rt = .ok state) : Recorded s state := by
  have listed : Listed s (fileKeys rt builder) (dirKeys rt builder) := listed_visits rt tally
  have few := listed.objects_le builder
  rcases normalizeObjects_assigned rt core tally short with ⟨other, otherRan, assigned⟩
  rw [ran, Except.ok.injEq] at otherRan
  subst otherRan
  rcases normalizeObjects_loops rt core tally ran with
    ⟨afterFiles, afterDirs, fileLedger, fileObjects, dirLedger, dirObjects, rfl⟩
  have unassigned := dirObjects.unassigned listed.files_complete (by omega)
  have counts := normalizeAnonymous_counts tally dirObjects.tagged unassigned
  have assigns := normalizeAnonymous_fold builder dirObjects.tagged unassigned
  generalize finalEq : afterDirs.entries.foldl builder.normalizeAnonymousFile
    { afterDirs with entries := [] } = state at *
  -- the records of the three loops in a row
  have records : state.objects = allRecords rt builder s := by
    rw [assigns.2.1, dirLedger.objects_eq, fileLedger.objects_eq, allRecords]
    congr 1
    apply List.map_congr_left
    intro entry entryMem
    exact tally.anonymousObject_eq (List.mem_filter.mp entryMem).1
  have objectsLe : state.objects.length ≤ s.entries.length := by
    rw [assigned.objects_length]
    exact few
  have index : ∀ (idx : ℕ) (entry : EntryObservation) (compact : CompactEntry),
      s.entries[idx]? = some entry → state.entries[idx]? = some compact →
        Indexed builder s (fileKeys rt builder) (dirKeys rt builder) state.objects idx entry
          compact.objectIndex := by
    intro idx entry compact found stored
    rw [records]
    exact Assigned.entry_indexed tally assigned found stored
  have word : ∀ position record, state.objects[position]? = some record →
      (UInt32.ofNat position).toNat = position ∧ UInt32.ofNat position ≠ noObject := by
    intro position record found
    have inside := (List.getElem?_eq_some_iff.mp found).1
    exact objectWord (by omega)
  exact {
    tagged := assigned.tagged
    flags := by
      intro idx entry compact found stored
      rcases dirObjects.tagged.tagged idx entry found with ⟨dirIndex, dirSized, dirFound⟩
      rcases fileObjects.tagged.tagged idx entry found with ⟨fileIndex, fileSized, fileFound⟩
      have final := assigns.2.2 idx entry _ found dirFound
      rw [stored, Option.some.injEq] at final
      have kept : compact.allocatedSizeKnown = dirSized := by
        rw [final]
        split <;> rfl
      have second := dirLedger.flags idx _ _ fileFound dirFound
      have first := fileLedger.flags idx entry _ found fileFound
      rw [kept]
      refine second.trans (first.trans ?_)
      rw [Snapshot.leafKnown, Snapshot.disputed]
      congr 2
      cases identified : entry.fileIdentity with
      | none => rfl
      | some identity =>
          have mem := (mem_fileKeys rt tally).mpr ⟨entry, List.mem_of_getElem? found, identified⟩
          simp [mem]
    recorded := by
      intro idx entry compact found stored
      have indexed := index idx entry compact found stored
      generalize compact.objectIndex = objectIndex at indexed
      cases indexed with
      | none unrecorded => rw [recordAt, if_pos rfl, unrecorded]
      | slot position record recorded located slot =>
          have small := word position record located
          rw [recordAt, if_neg small.2, small.1, located, recorded]
    unrecorded := by
      intro idx entry compact found stored
      have indexed := index idx entry compact found stored
      generalize compact.objectIndex = objectIndex at indexed
      cases indexed with
      | none unrecorded => simp [unrecorded]
      | slot position record recorded located slot =>
          simp [(word position record located).2, recorded]
    held := by
      intro idx other entry otherEntry left right found otherFound leftStored rightStored leftUsed
        rightUsed
      have leftIndexed := index idx entry left found leftStored
      have rightIndexed := index other otherEntry right otherFound rightStored
      generalize left.objectIndex = leftIndex at *
      generalize right.objectIndex = rightIndex at *
      cases leftIndexed with
      | none unrecorded => exact absurd rfl leftUsed
      | slot position record recorded located slot =>
          cases rightIndexed with
          | none unrecorded => exact absurd rfl rightUsed
          | slot otherPosition otherRecord otherRecorded otherLocated otherSlot =>
              rw [← slot.inj otherSlot, ← UInt32.toNat_inj, (word _ _ located).1,
                (word _ _ otherLocated).1]
    objects_le := objectsLe
    known_eq := by
      rw [counts.1, dirLedger.known_eq, fileLedger.known_eq, tally.known_eq,
        any_fileKeys_contradicted rt tally]
      rfl
    indeterminate_eq := by
      have distinct : (fileKeys rt builder).countP
          (fun identity => s.linkStatusOf identity = .indeterminate) =
          ((s.entries.filterMap fileIdentity).toFinset.filter
            (fun identity => s.linkStatusOf identity = .indeterminate)).card := by
        rw [← toFinset_fileKeys rt tally, List.countP_eq_length_filter,
          ← List.toFinset_card_of_nodup (listed.files_nodup.filter _), List.toFinset_filter]
        simp
      rw [counts.2, dirLedger.indeterminate_eq, fileLedger.indeterminate_eq, distinct,
        ← UInt64.ofNat_add]
      rfl }

end GraphBuilder

end PigTree
