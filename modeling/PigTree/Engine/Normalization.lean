import PigTree.Engine.Evidence

/-!
# Phase 1: one object record per distinct file

After this phase two files share an object record exactly when they carry the
same identity, and the record weighs the smallest known allocation of its
aliases. A file without identity has a record of its own or none at all. The
order in which the two maps are visited only renumbers the records.
-/

namespace PigTree

open Foundation EntryObservation

/-- The stored entry of an observation, with an object index and a size flag. -/
def EntryObservation.tagged (entry : EntryObservation) (objectIndex : UInt32) (known : Bool) :
    CompactEntry :=
  { entry.compact with objectIndex, allocatedSizeKnown := known }

namespace EntryObservation

variable (entry : EntryObservation) (objectIndex : UInt32) (known : Bool)

@[simp]
theorem tagged_id : (entry.tagged objectIndex known).id = entry.entryId := entry.compact_id

@[simp]
theorem tagged_kind : (entry.tagged objectIndex known).kind = entry.kind := entry.compact_kind

@[simp]
theorem tagged_objectIndex : (entry.tagged objectIndex known).objectIndex = objectIndex := rfl

/-- The stored allocation of a file is the observed one. -/
theorem tagged_allocatedSize (isFile : entry.kind = .file) :
    (entry.tagged objectIndex known).allocatedSize = entry.fileAllocated := by
  cases entry with
  | directory dir => cases isFile
  | file file => rfl
  | special special => cases isFile

theorem kind_of_fileIdentity {identity : ObjectIdentity}
    (identified : entry.fileIdentity = some identity) : entry.kind = .file := by
  cases entry with
  | directory dir => cases identified
  | file file => rfl
  | special special => cases identified

end EntryObservation

/-- Entries that differ from the observed ones in their tags only. -/
structure TaggedBy (es : List EntryObservation) (entries : List CompactEntry) : Prop where
  length_eq : entries.length = es.length
  tagged : ∀ (idx : ℕ) (entry : EntryObservation), es[idx]? = some entry →
    ∃ objectIndex known, entries[idx]? = some (entry.tagged objectIndex known)

/-- Updating tags keeps everything but the tags. -/
theorem TaggedBy.update {es : List EntryObservation} {entries updated : List CompactEntry}
    (tagged : TaggedBy es entries) {ids : List UInt32} {update : CompactEntry → CompactEntry}
    (retags : ∀ entry objectIndex known, ∃ objectIndex' known',
      update (EntryObservation.tagged entry objectIndex known) = entry.tagged objectIndex' known')
    (length_eq : updated.length = es.length)
    (updates : ∀ (idx : ℕ) entry compact, es[idx]? = some entry → entries[idx]? = some compact →
      updated[idx]? = some (if entry.entryId ∈ ids then update compact else compact)) :
    TaggedBy es updated where
  length_eq := length_eq
  tagged := by
    intro idx entry found
    rcases tagged.tagged idx entry found with ⟨objectIndex, known, stored⟩
    rw [updates idx entry _ found stored]
    split
    · rcases retags entry objectIndex known with ⟨objectIndex', known', retagged⟩
      exact ⟨objectIndex', known', by rw [retagged]⟩
    · exact ⟨objectIndex, known, rfl⟩

/-- Which object a file belongs to: the one of its identity, or one of its own. -/
inductive ObjectKey where
  | shared (identity : ObjectIdentity)
  | alone (idx : ℕ)
deriving DecidableEq

/-- The object of the entry at a position; only files have one. -/
def objectKey (es : List EntryObservation) (idx : ℕ) : Option ObjectKey :=
  match es[idx]? with
  | some (.file seen) => some (seen.objectId.elim (.alone idx) .shared)
  | some (.directory _) => none
  | some (.special _) => none
  | none => none

/-- The weight of an object. -/
def keyWeight (s : Snapshot) : ObjectKey → ℕ
  | .shared identity => s.weight identity
  | .alone idx => s.valueAt anonymousAllocated idx

namespace GraphBuilder

variable {builder : GraphBuilder} {es : List EntryObservation}

namespace Core

theorem entryIndex_eq (core : Core builder es) {idx : ℕ} {entry : EntryObservation}
    (found : es[idx]? = some entry) : builder.entryIndex entry.entryId = .ok idx := by
  have lookedUp := core.lookupParent_complete found
  have bound := (List.getElem?_eq_some_iff.mp found).1
  unfold lookupParent at lookedUp
  unfold entryIndex
  split at lookedUp
  · next dense =>
      rw [if_pos dense]
      split at lookedUp
      · cases lookedUp
      · rw [Option.some.injEq] at lookedUp
        rw [lookedUp]
  · next sparse =>
      rw [if_neg sparse]
      have located := core.indexed.sparse (by simpa using sparse)
      rw [located.lookup_eq core.wellFormed.length_le found] at lookedUp ⊢
      simp only [Option.map_some, Option.some.injEq] at lookedUp
      simp only [lookedUp]

theorem entryIndex_of_mem (core : Core builder es) {id : UInt32}
    (known : id ∈ es.map entryId) : ∃ idx entry, es[idx]? = some entry ∧ entry.entryId = id ∧
      builder.entryIndex id = .ok idx := by
  rcases List.mem_map.mp known with ⟨entry, entryMem, rfl⟩
  rcases List.mem_iff_getElem?.mp entryMem with ⟨idx, found⟩
  exact ⟨idx, entry, found, rfl, core.entryIndex_eq found⟩

/-- Updating the entries of some identifiers leaves the others alone. -/
theorem updateEntries_ok (core : Core builder es) {ids : List UInt32}
    (known : ∀ id ∈ ids, id ∈ es.map entryId) (nodup : ids.Nodup)
    (update : CompactEntry → CompactEntry) {entries : List CompactEntry}
    (length_eq : entries.length = es.length) :
    ∃ updated, builder.updateEntries ids update entries = .ok updated ∧
      updated.length = es.length ∧
      ∀ (idx : ℕ) entry compact, es[idx]? = some entry → entries[idx]? = some compact →
        updated[idx]? = some (if entry.entryId ∈ ids then update compact else compact) := by
  refine foldlM_ok ids (fun seen (updated : List CompactEntry) => updated.length = es.length ∧
    ∀ (idx : ℕ) entry compact, es[idx]? = some entry → entries[idx]? = some compact →
      updated[idx]? = some (if entry.entryId ∈ seen then update compact else compact)) ?_ ?_
  · refine ⟨length_eq, ?_⟩
    intro idx entry compact _ found
    simpa using found
  · intro seen id rest updated split holds
    have idMem : id ∈ ids := by simp [split]
    rcases core.entryIndex_of_mem (known id idMem) with ⟨position, owner, stored, rfl, indexed⟩
    have inside := (List.getElem?_eq_some_iff.mp stored).1
    have unseen : owner.entryId ∉ seen := by
      rw [split] at nodup
      exact fun mem => List.disjoint_of_nodup_append nodup mem List.mem_cons_self
    simp only [indexed, Checked.ok_bind]
    rw [modifyAt_of_lt (by omega)]
    refine ⟨_, rfl, by simpa using holds.1, ?_⟩
    intro idx entry compact found before
    have current := holds.2 idx entry compact found before
    by_cases same : position = idx
    · subst same
      rw [stored, Option.some.injEq] at found
      subst found
      rw [if_neg unseen] at current
      rw [getElem?_modify_self update current]
      simp
    · have different : entry.entryId ≠ owner.entryId := by
        intro equal
        have positions := core.wellFormed.indexOf_eq found
        rw [equal, core.wellFormed.indexOf_eq stored] at positions
        exact same positions
      rw [getElem?_modify_of_ne update same, current]
      simp [different]

end Core

/-! ### Weights -/

/-- Resolving the allocations of an identity folds those of its aliases. -/
theorem resolveAllocs_eq {s : Snapshot} (core : Core builder s.entries) (identity : ObjectIdentity)
    {entries : List CompactEntry} (tagged : TaggedBy s.entries entries) :
    builder.resolveAllocs entries (fileIds s.entries identity) = .ok (s.allocEvidence identity) := by
  rw [fileIds_aliases, resolveAllocs, List.foldlM_map]
  have loop : ∃ allocs, (s.aliases identity).foldlM (fun resolution entry => do
      let eIdx ← builder.entryIndex (entryId entry)
      let compact ← getAt entries eIdx
      return AllocResolution.observe resolution compact.allocatedSize) .initial = .ok allocs ∧
        allocs = ((s.aliases identity).map fileAllocated).foldl AllocResolution.observe .initial := by
    refine foldlM_ok _ (fun seen allocs =>
      allocs = (seen.map fileAllocated).foldl AllocResolution.observe .initial) rfl ?_
    rintro seen entry rest allocs split rfl
    have entryMem : entry ∈ s.aliases identity := by simp [split]
    rcases Snapshot.mem_aliases.mp entryMem with ⟨accepted, identified⟩
    rcases List.mem_iff_getElem?.mp accepted with ⟨idx, found⟩
    rcases tagged.tagged idx entry found with ⟨objectIndex, known, stored⟩
    simp only [core.entryIndex_eq found, getAt_of_getElem? stored, Checked.ok_bind,
      Checked.pure_eq_ok]
    refine ⟨_, rfl, ?_⟩
    rw [tagged_allocatedSize _ _ _ (kind_of_fileIdentity _ identified), List.map_append,
      List.foldl_append]
    rfl
  rcases loop with ⟨allocs, ran, rfl⟩
  exact ran

/-- The weight of an object is the smallest known allocation of its aliases. -/
theorem resolveAllocs_ok {s : Snapshot} (core : Core builder s.entries) (identity : ObjectIdentity)
    {entries : List CompactEntry} (tagged : TaggedBy s.entries entries) :
    ∃ allocs, builder.resolveAllocs entries (fileIds s.entries identity) = .ok allocs ∧
      allocs.minAlloc = (s.knownAllocations identity).min? :=
  ⟨_, resolveAllocs_eq core identity tagged, (s.sees_allocEvidence identity).minAlloc⟩

/-! ### The loop over the file objects -/

theorem mem_fileIds_iff {s : Snapshot} {entry : EntryObservation} (entryMem : entry ∈ s.entries)
    (identity : ObjectIdentity) :
    entry.entryId ∈ fileIds s.entries identity ↔ entry.fileIdentity = some identity := by
  rw [fileIds_eq, List.mem_map]
  constructor
  · rintro ⟨other, otherMem, same⟩
    have filtered := List.mem_filter.mp otherMem
    have equal := s.wellFormed.eq_of_entryId filtered.1 entryMem same
    simpa [equal] using filtered.2
  · intro identified
    exact ⟨entry, List.mem_filter.mpr ⟨entryMem, by simpa using identified⟩, rfl⟩

/-- The object index of a file once the objects of `seen` have been created. -/
def fileObjectIndex (seen : List ObjectIdentity) (entry : EntryObservation) : UInt32 :=
  match entry.fileIdentity with
  | some identity => if identity ∈ seen then UInt32.ofNat (seen.idxOf identity) else noObject
  | none => noObject

/-- The objects of `seen` exist, in this order, and their files point at them. -/
structure FileObjects (s : Snapshot) (seen : List ObjectIdentity) (state : Normalized) : Prop where
  tagged : TaggedBy s.entries state.entries
  indexed : ∀ (idx : ℕ) (entry : EntryObservation) (compact : CompactEntry),
    s.entries[idx]? = some entry → state.entries[idx]? = some compact →
      compact.objectIndex = fileObjectIndex seen entry
  objects_length : state.objects.length = seen.length
  weights : ∀ (k : ℕ) (identity : ObjectIdentity), seen[k]? = some identity →
    ∃ obj, state.objects[k]? = some obj ∧ obj.identity = some identity ∧
      obj.weight.toNat = s.weight identity

variable {s : Snapshot}

theorem normalizeFileObject_ok (core : Core builder s.entries) {seen : List ObjectIdentity}
    {state : Normalized} (holds : FileObjects s seen state) {identity : ObjectIdentity}
    (fresh : identity ∉ seen) :
    ∃ next, builder.normalizeFileObject state (identity, fileIds s.entries identity) = .ok next ∧
      FileObjects s (seen ++ [identity]) next := by
  have known : ∀ id ∈ fileIds s.entries identity, id ∈ s.entries.map entryId := by
    intro id idMem
    rw [fileIds_eq] at idMem
    exact List.map_subset _ (List.filter_subset_self _) idMem
  have nodup : (fileIds s.entries identity).Nodup := by
    rw [fileIds_eq]
    exact (List.filter_sublist.map _).nodup s.wellFormed.nodup_ids
  rcases resolveAllocs_ok core identity holds.tagged with ⟨allocs, resolved, minimum⟩
  -- a conflict between the aliases clears their size flags and nothing else
  have flagged : ∃ entries,
      builder.flagConflict allocs (fileIds s.entries identity) state.entries = .ok entries ∧
        TaggedBy s.entries entries ∧
      ∀ (idx : ℕ) (entry : EntryObservation) (compact : CompactEntry),
        s.entries[idx]? = some entry → entries[idx]? = some compact →
          compact.objectIndex = fileObjectIndex seen entry := by
    unfold flagConflict
    split
    · rcases core.updateEntries_ok known nodup
        (fun entry => { entry with allocatedSizeKnown := false }) holds.tagged.length_eq with
        ⟨entries, updated, length_eq, updates⟩
      refine ⟨entries, updated, holds.tagged.update ?_ length_eq updates, ?_⟩
      · intro entry objectIndex _
        exact ⟨objectIndex, false, rfl⟩
      · intro idx entry compact found stored
        rcases holds.tagged.tagged idx entry found with ⟨objectIndex, sized, before⟩
        rw [updates idx entry _ found before, Option.some.injEq] at stored
        rw [← holds.indexed idx entry _ found before, ← stored]
        split <;> rfl
    · exact ⟨state.entries, rfl, holds.tagged, holds.indexed⟩
  rcases flagged with ⟨entries, flaggedEq, tagged, indexed⟩
  rcases core.updateEntries_ok known nodup
    (fun entry => { entry with objectIndex := UInt32.ofNat state.objects.length })
    tagged.length_eq with ⟨entries', updated, length_eq, updates⟩
  simp only [normalizeFileObject, resolved, Checked.ok_bind, flaggedEq, updated,
    Checked.pure_eq_ok]
  refine ⟨_, rfl, ?_⟩
  exact {
    tagged := tagged.update (fun entry _ known => ⟨_, known, rfl⟩) length_eq updates
    indexed := by
      intro idx entry compact found stored
      rcases tagged.tagged idx entry found with ⟨objectIndex, sized, before⟩
      simp only at stored
      rw [updates idx entry _ found before, Option.some.injEq] at stored
      have old := indexed idx entry _ found before
      have entryMem := List.mem_of_getElem? found
      rw [← stored, holds.objects_length]
      by_cases owned : entry.fileIdentity = some identity
      · rw [if_pos ((mem_fileIds_iff entryMem identity).mpr owned)]
        simp [fileObjectIndex, owned, List.idxOf_append_of_notMem fresh]
      · rw [if_neg (fun mem => owned ((mem_fileIds_iff entryMem identity).mp mem)), old]
        unfold fileObjectIndex
        cases other : entry.fileIdentity with
        | none => rfl
        | some otherIdentity =>
            have different : otherIdentity ≠ identity :=
              fun same => owned (same ▸ other)
            by_cases created : otherIdentity ∈ seen
            · simp [created, List.idxOf_append_of_mem created]
            · simp [created, different]
    objects_length := by simp [holds.objects_length]
    weights := by
      intro k other found
      by_cases old : k < seen.length
      · rw [List.getElem?_append_left old] at found
        rcases holds.weights k other found with ⟨obj, stored, facts⟩
        refine ⟨obj, ?_, facts⟩
        rw [List.getElem?_append_left (by rw [holds.objects_length]; exact old)]
        exact stored
      · have bound := (List.getElem?_eq_some_iff.mp found).1
        rw [List.length_append, List.length_singleton] at bound
        have atEnd : k = seen.length := by omega
        subst atEnd
        rw [List.getElem?_concat_length, Option.some.injEq] at found
        subst found
        rw [← holds.objects_length, List.getElem?_concat_length]
        refine ⟨_, rfl, rfl, ?_⟩
        simp only [minimum]
        rfl }

/-! ### The loop over the directory objects -/

/-- The object index of an entry once the objects of all files and of the
directories in `seen` have been created. -/
def dirObjectIndex (files : List ObjectIdentity) (seen : List UInt32) (entry : EntryObservation) :
    UInt32 :=
  if entry.kind = .directory then
    if entry.entryId ∈ seen then UInt32.ofNat (files.length + seen.idxOf entry.entryId)
    else noObject
  else fileObjectIndex files entry

/-- The objects of the directories in `seen` follow those of the files. -/
structure DirObjects (s : Snapshot) (files : List ObjectIdentity) (seen : List UInt32)
    (state : Normalized) : Prop where
  tagged : TaggedBy s.entries state.entries
  indexed : ∀ (idx : ℕ) (entry : EntryObservation) (compact : CompactEntry),
    s.entries[idx]? = some entry → state.entries[idx]? = some compact →
      compact.objectIndex = dirObjectIndex files seen entry
  objects_length : state.objects.length = files.length + seen.length
  weights : ∀ (k : ℕ) (identity : ObjectIdentity), files[k]? = some identity →
    ∃ obj, state.objects[k]? = some obj ∧ obj.identity = some identity ∧
      obj.weight.toNat = s.weight identity

theorem DirObjects.start {files : List ObjectIdentity} {state : Normalized}
    (holds : FileObjects s files state) : DirObjects s files [] state where
  tagged := holds.tagged
  indexed := by
    intro idx entry compact found stored
    rw [holds.indexed idx entry compact found stored]
    unfold dirObjectIndex
    by_cases directory : entry.kind = .directory
    · have anonymous : entry.fileIdentity = none := by
        cases identified : entry.fileIdentity with
        | none => rfl
        | some identity =>
            rw [kind_of_fileIdentity entry identified] at directory
            cases directory
      simp [directory, fileObjectIndex, anonymous]
    · rw [if_neg directory]
  objects_length := by simpa using holds.objects_length
  weights := holds.weights

theorem normalizeDirObject_ok (core : Core builder s.entries) {files : List ObjectIdentity}
    {seen : List UInt32} {state : Normalized} (holds : DirObjects s files seen state)
    {dir : DirectoryObservation} (dirMem : .directory dir ∈ s.entries)
    (fresh : dir.entryId ∉ seen) (identity : ObjectIdentity) :
    ∃ next, builder.normalizeDirObject state (dir.entryId, identity) = .ok next ∧
      DirObjects s files (seen ++ [dir.entryId]) next := by
  rcases List.mem_iff_getElem?.mp dirMem with ⟨position, stored⟩
  have inside := (List.getElem?_eq_some_iff.mp stored).1
  have indexed : builder.entryIndex dir.entryId = .ok position := core.entryIndex_eq stored
  simp only [normalizeDirObject, indexed, Checked.ok_bind,
    modifyAt_of_lt (by rw [holds.tagged.length_eq]; exact inside), Checked.pure_eq_ok]
  refine ⟨_, rfl, ?_⟩
  have updates : ∀ (idx : ℕ) (entry : EntryObservation) (compact : CompactEntry),
      s.entries[idx]? = some entry → state.entries[idx]? = some compact →
        (state.entries.modify position (fun entry =>
          { entry with objectIndex := UInt32.ofNat state.objects.length }))[idx]? =
          some (if entry.entryId ∈ [dir.entryId] then
            { compact with objectIndex := UInt32.ofNat state.objects.length } else compact) := by
    intro idx entry compact found before
    by_cases same : position = idx
    · subst same
      rw [stored, Option.some.injEq] at found
      subst found
      rw [getElem?_modify_self _ before]
      simp [entryId]
    · have different : entry.entryId ≠ dir.entryId := by
        intro equal
        have positions := s.wellFormed.indexOf_eq found
        rw [equal] at positions
        exact same ((s.wellFormed.indexOf_eq stored).symm.trans positions)
      rw [getElem?_modify_of_ne _ same, before]
      simp [different]
  exact {
    tagged := by
      refine holds.tagged.update (fun entry _ known => ⟨_, known, rfl⟩) ?_ updates
      simpa using holds.tagged.length_eq
    indexed := by
      intro idx entry compact found after
      rcases holds.tagged.tagged idx entry found with ⟨objectIndex, sized, before⟩
      simp only at after
      rw [updates idx entry _ found before, Option.some.injEq] at after
      have old := holds.indexed idx entry _ found before
      rw [← after]
      by_cases named : entry.entryId = dir.entryId
      · have same := s.wellFormed.eq_of_entryId (List.mem_of_getElem? found) dirMem named
        subst same
        rw [if_pos (by simp [entryId])]
        simp [dirObjectIndex, kind, entryId, holds.objects_length,
          List.idxOf_append_of_notMem fresh]
      · rw [if_neg (by simpa using named), old]
        unfold dirObjectIndex
        split
        · by_cases created : entry.entryId ∈ seen
          · simp [created, List.idxOf_append_of_mem created]
          · simp [created, named]
        · rfl
    objects_length := by
      simp only [List.length_append, List.length_singleton, holds.objects_length]
      omega
    weights := by
      intro k other found
      have bound := (List.getElem?_eq_some_iff.mp found).1
      rcases holds.weights k other found with ⟨obj, before, facts⟩
      refine ⟨obj, ?_, facts⟩
      rw [List.getElem?_append_left (by rw [holds.objects_length]; omega)]
      exact before }

/-! ### The loop over the files without identity -/

/-- Files that may get an object of their own. -/
def isAnonymous (entry : EntryObservation) : Bool :=
  entry.kind = .file && entry.fileIdentity.isNone

/-- Files without identity that get an object: those with link evidence. -/
def createsObject (builder : GraphBuilder) (entry : EntryObservation) : Bool :=
  isAnonymous entry && builder.linkOf entry.entryId ≠ .notObserved

def anonymousObject (builder : GraphBuilder) (entry : EntryObservation) : ObjectRecord where
  identity := none
  observedAliasCount := 1
  totalLinkCount := builder.linkOf entry.entryId
  externalReferenceStatus := ExternalReferenceStatus.derive (builder.linkOf entry.entryId) 1
  weight := entry.fileAllocated.getD 0

/-- The object index a file without identity gets: the objects so far, counted. -/
def anonymousIndex (builder : GraphBuilder) (es : List EntryObservation) (created idx : ℕ) :
    UInt32 :=
  UInt32.ofNat (created + (es.take idx).countP builder.createsObject)

/-- The loop over all entries creates the objects of the files without identity. -/
theorem normalizeAnonymous_fold (builder : GraphBuilder) {base : Normalized} (tagged : TaggedBy s.entries base.entries)
    (unassigned : ∀ (idx : ℕ) (entry : EntryObservation) (compact : CompactEntry),
      s.entries[idx]? = some entry → base.entries[idx]? = some compact → entry.kind = .file →
        (compact.objectIndex = noObject ↔ entry.fileIdentity = none)) :
    let final := base.entries.foldl builder.normalizeAnonymousFile { base with entries := [] }
    final.entries.length = s.entries.length ∧
    final.objects = base.objects ++
      (s.entries.filter builder.createsObject).map builder.anonymousObject ∧
    ∀ (idx : ℕ) (entry : EntryObservation) (compact : CompactEntry),
      s.entries[idx]? = some entry → base.entries[idx]? = some compact →
        final.entries[idx]? = some (if builder.createsObject entry then
          { compact with objectIndex := builder.anonymousIndex s.entries base.objects.length idx }
          else compact) := by
  intro final
  suffices loop : final.entries.length = base.entries.length ∧
      final.objects = base.objects ++
        ((s.entries.take base.entries.length).filter builder.createsObject).map
          builder.anonymousObject ∧
      ∀ (idx : ℕ) (entry : EntryObservation) (compact : CompactEntry),
        s.entries[idx]? = some entry → base.entries[idx]? = some compact →
          final.entries[idx]? = some (if builder.createsObject entry then
            { compact with objectIndex := builder.anonymousIndex s.entries base.objects.length idx }
            else compact) by
    rw [tagged.length_eq, List.take_length] at loop
    exact loop
  refine foldl_invariant base.entries (fun seen (state : Normalized) =>
    state.entries.length = seen.length ∧
      state.objects = base.objects ++
        ((s.entries.take seen.length).filter builder.createsObject).map builder.anonymousObject ∧
      ∀ (idx : ℕ) (entry : EntryObservation) (compact : CompactEntry),
        s.entries[idx]? = some entry → seen[idx]? = some compact →
          state.entries[idx]? = some (if builder.createsObject entry then
            { compact with objectIndex := builder.anonymousIndex s.entries base.objects.length idx }
            else compact)) ?_ ?_
  · simp
  · intro seen compact rest state split holds
    rcases holds with ⟨length_eq, objects_eq, entries_eq⟩
    have inside : seen.length < s.entries.length := by
      rw [← tagged.length_eq, split]
      simp
    have found := List.getElem?_eq_getElem inside
    generalize current : s.entries[seen.length] = entry at found
    have stored : base.entries[seen.length]? = some compact := by simp [split]
    rcases tagged.tagged _ _ found with ⟨objectIndex, known, before⟩
    have isTagged : compact = entry.tagged objectIndex known := by
      rw [stored, Option.some.injEq] at before
      exact before
    have created : (s.entries.take (seen.length + 1)) = s.entries.take seen.length ++ [entry] := by
      rw [List.take_add_one, found]
      rfl
    have objectsLength : state.objects.length =
        base.objects.length + (s.entries.take seen.length).countP builder.createsObject := by
      rw [objects_eq, List.length_append, List.length_map, List.countP_eq_length_filter]
    -- what one pass does to the entry and to the objects
    have pass : (builder.normalizeAnonymousFile state compact).entries =
          state.entries ++ [if builder.createsObject entry then
            { compact with
              objectIndex := builder.anonymousIndex s.entries base.objects.length seen.length }
            else compact] ∧
        (builder.normalizeAnonymousFile state compact).objects =
          state.objects ++
            if builder.createsObject entry then [builder.anonymousObject entry] else [] := by
      have kindEq : compact.kind = entry.kind := by simp [isTagged]
      have idEq : compact.id = entry.entryId := by simp [isTagged]
      unfold normalizeAnonymousFile
      by_cases anonymous : compact.kind = .file ∧ compact.objectIndex = noObject
      · rw [if_pos anonymous]
        have isFile : entry.kind = .file := kindEq ▸ anonymous.1
        have identity := (unassigned _ _ _ found stored isFile).mp anonymous.2
        have allocated : compact.allocatedSize = entry.fileAllocated := by
          rw [isTagged, tagged_allocatedSize _ _ _ isFile]
        by_cases linked : builder.linkOf entry.entryId ≠ .notObserved
        · simp [createsObject, isAnonymous, isFile, identity, idEq, linked, anonymousObject,
            allocated, anonymousIndex, objectsLength]
        · simp [createsObject, isAnonymous, isFile, identity, idEq, linked]
      · rw [if_neg anonymous]
        have skipped : builder.createsObject entry = false := by
          rw [Bool.eq_false_iff]
          intro creates
          simp only [createsObject, isAnonymous, Bool.and_eq_true, decide_eq_true_eq,
            Option.isNone_iff_eq_none] at creates
          apply anonymous
          exact ⟨kindEq.trans creates.1.1,
            (unassigned _ _ _ found stored creates.1.1).mpr creates.1.2⟩
        simp [skipped]
    rw [pass.1, pass.2]
    refine ⟨by simp [length_eq], ?_, ?_⟩
    · rw [objects_eq, List.length_append, List.length_singleton, created, List.filter_append,
        List.map_append, List.append_assoc]
      congr 2
      by_cases creates : builder.createsObject entry = true
      · simp [creates]
      · simp [creates]
    · intro idx other otherCompact otherFound otherSeen
      by_cases old : idx < seen.length
      · rw [List.getElem?_append_left old] at otherSeen
        rw [List.getElem?_append_left (by omega)]
        exact entries_eq idx other otherCompact otherFound otherSeen
      · have bound := (List.getElem?_eq_some_iff.mp otherSeen).1
        rw [List.length_append, List.length_singleton] at bound
        have atEnd : idx = seen.length := by omega
        subst atEnd
        rw [List.getElem?_concat_length, Option.some.injEq] at otherSeen
        rw [found, Option.some.injEq] at otherFound
        subst otherSeen
        subst otherFound
        rw [← length_eq, List.getElem?_concat_length]

/-! ### The result of the phase -/

/-- Two files point at one object exactly when they have the same key, and the
object has the weight of the key. -/
structure ObjectTable (s : Snapshot) (entries : List CompactEntry) (objects : List ObjectRecord) :
    Prop where
  tagged : TaggedBy s.entries entries
  objects_le : objects.length ≤ s.entries.length
  bounded : ∀ compact ∈ entries, compact.objectIndex ≠ noObject →
    compact.objectIndex.toNat < objects.length
  weighs : ∀ (idx : ℕ) (compact : CompactEntry) (key : ObjectKey), entries[idx]? = some compact →
    compact.objectIndex ≠ noObject → objectKey s.entries idx = some key →
      ∃ obj, objects[compact.objectIndex.toNat]? = some obj ∧ obj.weight.toNat = keyWeight s key
  shares : ∀ (idx other : ℕ) (left right : CompactEntry) (key otherKey : ObjectKey),
    entries[idx]? = some left → entries[other]? = some right → left.objectIndex ≠ noObject →
      right.objectIndex ≠ noObject → objectKey s.entries idx = some key →
        objectKey s.entries other = some otherKey →
          (left.objectIndex = right.objectIndex ↔ key = otherKey)
  missing : ∀ (idx : ℕ) (compact : CompactEntry) (key : ObjectKey), entries[idx]? = some compact →
    compact.objectIndex = noObject → objectKey s.entries idx = some key → key = .alone idx

/-- An index below the sentinel survives the conversion to 32 bits. -/
theorem objectWord {k : ℕ} (small : k < 2 ^ 32 - 1) :
    (UInt32.ofNat k).toNat = k ∧ UInt32.ofNat k ≠ noObject := by
  have word : (UInt32.ofNat k).toNat = k :=
    UInt32.toNat_ofNat_of_lt' (by unfold UInt32.size; omega)
  refine ⟨word, ?_⟩
  intro same
  rw [same] at word
  have sentinel : noObject.toNat = 2 ^ 32 - 1 := rfl
  omega

theorem countP_kinds_le (es : List EntryObservation) :
    es.countP (fun entry => entry.fileIdentity.isSome) +
      es.countP (fun entry => entry.kind = .directory) + es.countP isAnonymous ≤ es.length := by
  induction es with
  | nil => simp
  | cons entry es ih =>
      have one : (if entry.fileIdentity.isSome then 1 else 0) +
          (if entry.kind = .directory then 1 else 0) +
            (if isAnonymous entry = true then 1 else 0) ≤ 1 := by
        cases entry with
        | directory dir => simp [fileIdentity, kind, isAnonymous]
        | file file => cases identified : file.objectId <;> simp [fileIdentity, kind, isAnonymous,
            identified]
        | special special => simp [fileIdentity, kind, isAnonymous]
      simp only [List.countP_cons, List.length_cons, decide_eq_true_eq]
      omega

/-- The positions of created objects grow with the positions of their files. -/
theorem countP_take_lt {es : List EntryObservation} {p : EntryObservation → Bool} {idx other : ℕ}
    {entry : EntryObservation} (found : es[idx]? = some entry) (holds : p entry = true)
    (before : idx < other) : (es.take idx).countP p < (es.take other).countP p := by
  have longer : es.take idx ++ [entry] <+: es.take other := by
    have next : es.take (idx + 1) = es.take idx ++ [entry] := by
      rw [List.take_add_one, found]
      rfl
    rw [← next]
    exact List.take_prefix_take_left before
  have counted := longer.sublist.countP_le (p := p)
  rw [List.countP_append] at counted
  simp only [List.countP_singleton, holds, if_true] at counted
  omega

/-- The filtered list holds an element at the number of its predecessors. -/
theorem getElem?_filter_countP {es : List EntryObservation} {p : EntryObservation → Bool} {idx : ℕ}
    {entry : EntryObservation} (found : es[idx]? = some entry) (holds : p entry = true) :
    (es.filter p)[(es.take idx).countP p]? = some entry := by
  have bound := (List.getElem?_eq_some_iff.mp found).1
  have here := (List.getElem?_eq_some_iff.mp found).2
  have split : es = es.take idx ++ entry :: es.drop (idx + 1) := by
    rw [← here, ← List.drop_eq_getElem_cons bound, List.take_append_drop]
  rw [List.countP_eq_length_filter]
  nth_rewrite 1 [split]
  rw [List.filter_append, List.filter_cons_of_pos holds]
  simp

/-- The objects of the three loops together. -/
structure Assigned (builder : GraphBuilder) (s : Snapshot) (files : List ObjectIdentity)
    (dirs : List UInt32) (state : Normalized) : Prop where
  tagged : TaggedBy s.entries state.entries
  indexed : ∀ (idx : ℕ) (entry : EntryObservation) (compact : CompactEntry),
    s.entries[idx]? = some entry → state.entries[idx]? = some compact →
      compact.objectIndex = if builder.createsObject entry then
        builder.anonymousIndex s.entries (files.length + dirs.length) idx
        else dirObjectIndex files dirs entry
  objects_length : state.objects.length =
    files.length + dirs.length + s.entries.countP builder.createsObject
  weights : ∀ (k : ℕ) (identity : ObjectIdentity), files[k]? = some identity →
    ∃ obj, state.objects[k]? = some obj ∧ obj.weight.toNat = s.weight identity
  anonymous : ∀ (idx : ℕ) (entry : EntryObservation), s.entries[idx]? = some entry →
    builder.createsObject entry = true →
      state.objects[files.length + dirs.length +
        (s.entries.take idx).countP builder.createsObject]? = some (builder.anonymousObject entry)

/-- After the first two loops the files without identity are those without an object. -/
theorem DirObjects.unassigned {files : List ObjectIdentity} {dirs : List UInt32} {base : Normalized}
    (holds : DirObjects s files dirs base)
    (created : ∀ entry ∈ s.entries, ∀ identity, entry.fileIdentity = some identity →
      identity ∈ files) (short : files.length < 2 ^ 32) (idx : ℕ) (entry : EntryObservation)
    (compact : CompactEntry) (found : s.entries[idx]? = some entry)
    (stored : base.entries[idx]? = some compact) (isFile : entry.kind = .file) :
    compact.objectIndex = noObject ↔ entry.fileIdentity = none := by
  rw [holds.indexed idx entry compact found stored]
  unfold dirObjectIndex fileObjectIndex
  rw [if_neg (by simp [isFile])]
  cases identified : entry.fileIdentity with
  | none => simp
  | some identity =>
      have mem := created entry (List.mem_of_getElem? found) identity identified
      have position := List.idxOf_lt_length_of_mem mem
      simp only [mem, if_true, reduceCtorEq, iff_false]
      exact (objectWord (by omega)).2

/-- The third loop completes the objects. -/
theorem DirObjects.assign (builder : GraphBuilder) {files : List ObjectIdentity} {dirs : List UInt32} {base : Normalized}
    (holds : DirObjects s files dirs base)
    (created : ∀ entry ∈ s.entries, ∀ identity, entry.fileIdentity = some identity →
      identity ∈ files) (short : files.length < 2 ^ 32) :
    Assigned builder s files dirs
      (base.entries.foldl builder.normalizeAnonymousFile { base with entries := [] }) := by
  have loop := normalizeAnonymous_fold builder holds.tagged (holds.unassigned created short)
  rcases loop with ⟨length_eq, objects_eq, entries_eq⟩
  exact {
    tagged := {
      length_eq := length_eq
      tagged := by
        intro idx entry found
        rcases holds.tagged.tagged idx entry found with ⟨objectIndex, known, before⟩
        rw [entries_eq idx entry _ found before]
        split
        · exact ⟨_, known, rfl⟩
        · exact ⟨objectIndex, known, rfl⟩ }
    indexed := by
      intro idx entry compact found stored
      rcases holds.tagged.tagged idx entry found with ⟨objectIndex, known, before⟩
      rw [entries_eq idx entry _ found before, Option.some.injEq] at stored
      rw [← stored, ← holds.objects_length, ← holds.indexed idx entry _ found before]
      split <;> rfl
    objects_length := by
      rw [objects_eq, List.length_append, List.length_map, holds.objects_length,
        List.countP_eq_length_filter]
    weights := by
      intro k identity found
      rcases holds.weights k identity found with ⟨obj, before, _, weight⟩
      refine ⟨obj, ?_, weight⟩
      rw [objects_eq, List.getElem?_append_left (List.getElem?_eq_some_iff.mp before).1]
      exact before
    anonymous := by
      intro idx entry found creates
      rw [objects_eq, ← holds.objects_length, List.getElem?_append_right (Nat.le_add_right _ _),
        Nat.add_sub_cancel_left, List.getElem?_map, getElem?_filter_countP found creates]
      rfl }

/-- The object index of a file in terms of its key. -/
inductive FileIndex (builder : GraphBuilder) (s : Snapshot) (files : List ObjectIdentity)
    (created idx : ℕ) (objectIndex : UInt32) : ObjectKey → Prop
  | shared (identity : ObjectIdentity) (mem : identity ∈ files)
      (word : objectIndex.toNat = files.idxOf identity) (used : objectIndex ≠ noObject) :
      FileIndex builder s files created idx objectIndex (.shared identity)
  | own (entry : EntryObservation) (found : s.entries[idx]? = some entry)
      (creates : builder.createsObject entry = true)
      (word : objectIndex.toNat = created + (s.entries.take idx).countP builder.createsObject) :
      FileIndex builder s files created idx objectIndex (.alone idx)
  | none (unused : objectIndex = noObject) :
      FileIndex builder s files created idx objectIndex (.alone idx)

/-- The identities of the files and the directories with one, as the maps list them. -/
structure Listed (s : Snapshot) (files : List ObjectIdentity) (dirs : List UInt32) : Prop where
  files_nodup : files.Nodup
  files_known : ∀ identity ∈ files, ∃ entry ∈ s.entries, entry.fileIdentity = some identity
  files_complete : ∀ entry ∈ s.entries, ∀ identity, entry.fileIdentity = some identity →
    identity ∈ files
  dirs_nodup : dirs.Nodup
  dirs_known : ∀ id ∈ dirs, ∃ entry ∈ s.entries, entry.kind = .directory ∧ entry.entryId = id

namespace Listed

variable {files : List ObjectIdentity} {dirs : List UInt32}

theorem files_length_le (listed : Listed s files dirs) :
    files.length ≤ s.entries.countP (fun entry => entry.fileIdentity.isSome) := by
  have subset : files ⊆ s.entries.filterMap fileIdentity := by
    intro identity mem
    rcases listed.files_known identity mem with ⟨entry, entryMem, identified⟩
    exact List.mem_filterMap.mpr ⟨entry, entryMem, identified⟩
  have short := (List.subperm_of_subset listed.files_nodup subset).length_le
  rwa [List.length_filterMap_eq_countP] at short

theorem dirs_length_le (listed : Listed s files dirs) :
    dirs.length ≤ s.entries.countP (fun entry => entry.kind = .directory) := by
  have subset : dirs ⊆ (s.entries.filter (fun entry => entry.kind = .directory)).map entryId := by
    intro id mem
    rcases listed.dirs_known id mem with ⟨entry, entryMem, directory, named⟩
    exact List.mem_map.mpr ⟨entry, List.mem_filter.mpr ⟨entryMem, by simpa using directory⟩, named⟩
  have short := (List.subperm_of_subset listed.dirs_nodup subset).length_le
  rwa [List.length_map, ← List.countP_eq_length_filter] at short

theorem objects_le (listed : Listed s files dirs) (builder : GraphBuilder) :
    files.length + dirs.length + s.entries.countP builder.createsObject ≤ s.entries.length := by
  have created : s.entries.countP builder.createsObject ≤ s.entries.countP isAnonymous := by
    apply List.countP_mono_left
    intro entry _ creates
    simp only [createsObject, Bool.and_eq_true] at creates
    exact creates.1
  have kinds := countP_kinds_le s.entries
  have fileCount := listed.files_length_le
  have dirCount := listed.dirs_length_le
  omega

end Listed

namespace Assigned

variable {files : List ObjectIdentity} {dirs : List UInt32} {state : Normalized}

/-- An object that is still to be created has a small index. -/
theorem count_lt (listed : Listed s files dirs) {idx : ℕ} {entry : EntryObservation}
    (found : s.entries[idx]? = some entry) (creates : builder.createsObject entry = true) :
    files.length + dirs.length + (s.entries.take idx).countP builder.createsObject <
      s.entries.length := by
  have total := listed.objects_le builder
  have inside := (List.getElem?_eq_some_iff.mp found).1
  have grows := countP_take_lt found creates inside
  rw [List.take_length] at grows
  omega

theorem fileIndex (assigned : Assigned builder s files dirs state) (listed : Listed s files dirs)
    (short : s.entries.length < 2 ^ 32) {idx : ℕ} {compact : CompactEntry} {key : ObjectKey}
    (stored : state.entries[idx]? = some compact) (keyed : objectKey s.entries idx = some key) :
    FileIndex builder s files (files.length + dirs.length) idx compact.objectIndex key := by
  unfold objectKey at keyed
  split at keyed
  · next file found =>
      have indexed := assigned.indexed idx _ compact found stored
      simp only [Option.some.injEq] at keyed
      cases identified : file.objectId with
      | some identity =>
          have plain : builder.createsObject (.file file) = false := by
            simp [createsObject, isAnonymous, fileIdentity, identified]
          have mem := listed.files_complete _ (List.mem_of_getElem? found) identity identified
          have position := List.idxOf_lt_length_of_mem mem
          have few := listed.objects_le builder
          have word := objectWord (k := files.idxOf identity) (by omega)
          rw [plain] at indexed
          simp only [Bool.false_eq_true, if_false, dirObjectIndex, kind, reduceCtorEq,
            fileObjectIndex, fileIdentity, identified, mem, if_true] at indexed
          rw [← keyed, identified, indexed]
          exact FileIndex.shared identity mem word.1 word.2
      | none =>
          rw [← keyed, identified]
          by_cases creates : builder.createsObject (.file file) = true
          · have small := count_lt listed found creates
            rw [creates] at indexed
            simp only [if_true, anonymousIndex] at indexed
            rw [indexed]
            exact FileIndex.own _ found creates (objectWord (by omega)).1
          · rw [Bool.not_eq_true] at creates
            rw [creates] at indexed
            simp only [Bool.false_eq_true, if_false, dirObjectIndex, kind, reduceCtorEq,
              fileObjectIndex, fileIdentity, identified] at indexed
            exact FileIndex.none indexed
  · cases keyed
  · cases keyed
  · cases keyed

theorem table (assigned : Assigned builder s files dirs state) (listed : Listed s files dirs)
    (short : s.entries.length < 2 ^ 32) : ObjectTable s state.entries state.objects where
  tagged := assigned.tagged
  objects_le := by
    rw [assigned.objects_length]
    exact listed.objects_le builder
  bounded := by
    intro compact compactMem used
    rcases List.mem_iff_getElem?.mp compactMem with ⟨idx, stored⟩
    have inside := (List.getElem?_eq_some_iff.mp stored).1
    rw [assigned.tagged.length_eq] at inside
    have found := List.getElem?_eq_getElem inside
    generalize s.entries[idx] = entry at found
    have indexed := assigned.indexed idx entry compact found stored
    have total := listed.objects_le builder
    rw [assigned.objects_length]
    by_cases creates : builder.createsObject entry = true
    · have small := count_lt listed found creates
      have grows := countP_take_lt found creates (List.getElem?_eq_some_iff.mp found).1
      rw [List.take_length] at grows
      rw [indexed, if_pos creates, anonymousIndex, (objectWord (by omega)).1]
      omega
    · rw [if_neg creates] at indexed
      rw [indexed] at used ⊢
      unfold dirObjectIndex fileObjectIndex at used ⊢
      by_cases directory : entry.kind = .directory
      · by_cases known : entry.entryId ∈ dirs
        · have position := List.idxOf_lt_length_of_mem known
          simp only [directory, known, if_true]
          rw [(objectWord (by omega)).1]
          omega
        · simp [directory, known] at used
      · cases identified : entry.fileIdentity with
        | none => simp [directory, identified] at used
        | some identity =>
            have mem := listed.files_complete _ (List.mem_of_getElem? found) identity identified
            have position := List.idxOf_lt_length_of_mem mem
            simp only [directory, mem, if_true, if_false]
            rw [(objectWord (by omega)).1]
            omega
  weighs := by
    intro idx compact key stored used keyed
    cases assigned.fileIndex listed short stored keyed with
    | shared identity mem word _ =>
        have at_ : files[files.idxOf identity]? = some identity :=
          List.getElem?_idxOf mem
        rcases assigned.weights _ identity at_ with ⟨obj, found, weight⟩
        exact ⟨obj, by rw [word, found], weight⟩
    | own entry found creates word =>
        refine ⟨_, by rw [word]; exact assigned.anonymous idx entry found creates, ?_⟩
        simp only [createsObject, isAnonymous, Bool.and_eq_true, decide_eq_true_eq,
          Option.isNone_iff_eq_none] at creates
        rw [keyWeight, Snapshot.valueAt_of_found found, anonymousAllocated, if_pos creates.1.2]
        rfl
    | none unused => exact absurd unused used
  shares := by
    intro idx other left right key otherKey leftStored rightStored leftUsed rightUsed keyed
      otherKeyed
    have total := listed.objects_le builder
    cases assigned.fileIndex listed short leftStored keyed with
    | none unused => exact absurd unused leftUsed
    | shared identity mem word _ =>
        have position := List.idxOf_lt_length_of_mem mem
        cases assigned.fileIndex listed short rightStored otherKeyed with
        | none unused => exact absurd unused rightUsed
        | shared otherIdentity otherMem otherWord _ =>
            rw [← UInt32.toNat_inj, word, otherWord, List.idxOf_inj mem]
            simp
        | own entry found creates otherWord =>
            rw [← UInt32.toNat_inj, word, otherWord]
            simp only [reduceCtorEq, iff_false]
            omega
    | own entry found creates word =>
        cases assigned.fileIndex listed short rightStored otherKeyed with
        | none unused => exact absurd unused rightUsed
        | shared otherIdentity otherMem otherWord _ =>
            have position := List.idxOf_lt_length_of_mem otherMem
            rw [← UInt32.toNat_inj, word, otherWord]
            simp only [reduceCtorEq, iff_false]
            omega
        | own otherEntry otherFound otherCreates otherWord =>
            rw [← UInt32.toNat_inj, word, otherWord, ObjectKey.alone.injEq]
            rcases Nat.lt_trichotomy idx other with before | same | after
            · have grows := countP_take_lt found creates before
              omega
            · simp [same]
            · have grows := countP_take_lt otherFound otherCreates after
              omega
  missing := by
    intro idx compact key stored unused keyed
    cases assigned.fileIndex listed short stored keyed with
    | shared identity mem word used => exact absurd unused used
    | own entry found creates word => rfl
    | none _ => rfl

end Assigned

/-! ### The maps as lists -/

section Visits

variable (rt : Runtime)

theorem fileVisit_ids (tally : Tally builder s.entries) {item : ObjectIdentity × List UInt32}
    (itemMem : item ∈ rt.fileObjectOrder.visit builder.fileObjectMap) :
    item.2 = fileIds s.entries item.1 ∧ fileIds s.entries item.1 ≠ [] := by
  have lookedUp := rt.fileObjectOrder.mem_visit.mp itemMem
  rw [tally.fileObjects item.1] at lookedUp
  split at lookedUp
  · cases lookedUp
  · next some => exact ⟨(Option.some.inj lookedUp).symm, some⟩

theorem dirVisit_directory (tally : Tally builder s.entries) {item : UInt32 × ObjectIdentity}
    (itemMem : item ∈ rt.dirObjectOrder.visit builder.dirObjectIds) :
    ∃ dir, EntryObservation.directory dir ∈ s.entries ∧ dir.entryId = item.1 := by
  have lookedUp := rt.dirObjectOrder.mem_visit.mp itemMem
  rcases (tally.dirObjects item.1 item.2).mp lookedUp with ⟨dir, dirMem, named, _⟩
  exact ⟨dir, dirMem, named⟩

theorem listed_visits (tally : Tally builder s.entries) :
    Listed s ((rt.fileObjectOrder.visit builder.fileObjectMap).map Prod.fst)
      ((rt.dirObjectOrder.visit builder.dirObjectIds).map Prod.fst) where
  files_nodup := rt.fileObjectOrder.nodup_keys_visit builder.fileObjectMap
  files_known := by
    intro identity mem
    rcases List.mem_map.mp mem with ⟨item, itemMem, rfl⟩
    have some := (fileVisit_ids rt tally itemMem).2
    rcases List.exists_mem_of_ne_nil _ some with ⟨id, idMem⟩
    rw [fileIds_eq, List.mem_map] at idMem
    rcases idMem with ⟨entry, entryMem, _⟩
    have filtered := List.mem_filter.mp entryMem
    exact ⟨entry, filtered.1, by simpa using filtered.2⟩
  files_complete := by
    intro entry entryMem identity identified
    have some : fileIds s.entries identity ≠ [] := by
      intro none
      have mem := (mem_fileIds_iff entryMem identity).mpr identified
      simp [none] at mem
    have lookedUp := tally.fileObjects identity
    rw [if_neg some] at lookedUp
    exact List.mem_map.mpr ⟨_, rt.fileObjectOrder.mem_visit.mpr lookedUp, rfl⟩
  dirs_nodup := rt.dirObjectOrder.nodup_keys_visit builder.dirObjectIds
  dirs_known := by
    intro id mem
    rcases List.mem_map.mp mem with ⟨item, itemMem, rfl⟩
    rcases dirVisit_directory rt tally itemMem with ⟨dir, dirMem, named⟩
    exact ⟨_, dirMem, rfl, named⟩

end Visits

theorem FileObjects.start (core : Core builder s.entries) :
    FileObjects s [] builder.initialNormalized where
  tagged :=
    { length_eq := core.length_entries
      tagged := fun idx entry found =>
        ⟨noObject, entry.compact.allocatedSizeKnown, by
          rw [initialNormalized, core.getElem?_entries found, EntryObservation.tagged,
            ← compact_objectIndex entry]⟩ }
  indexed := by
    intro idx entry compact found stored
    rw [initialNormalized, core.getElem?_entries found, Option.some.injEq] at stored
    rw [← stored, compact_objectIndex, fileObjectIndex]
    split <;> simp
  objects_length := rfl
  weights := by simp

/-- The loop over the file objects never aborts, and carries along whatever else each pass keeps. -/
theorem fileLoop_ok (rt : Runtime) (core : Core builder s.entries) (tally : Tally builder s.entries)
    (Inv : List ObjectIdentity → Normalized → Prop) (initial : Inv [] builder.initialNormalized)
    (pass : ∀ seen identity state next, FileObjects s seen state → Inv seen state →
      builder.normalizeFileObject state (identity, fileIds s.entries identity) = .ok next →
        Inv (seen ++ [identity]) next) :
    ∃ state, (rt.fileObjectOrder.visit builder.fileObjectMap).foldlM builder.normalizeFileObject
        builder.initialNormalized = .ok state ∧
      FileObjects s ((rt.fileObjectOrder.visit builder.fileObjectMap).map Prod.fst) state ∧
        Inv ((rt.fileObjectOrder.visit builder.fileObjectMap).map Prod.fst) state := by
  have listed := listed_visits rt tally
  refine foldlM_ok (rt.fileObjectOrder.visit builder.fileObjectMap)
    (fun seen state => FileObjects s (seen.map Prod.fst) state ∧ Inv (seen.map Prod.fst) state)
    ⟨FileObjects.start core, initial⟩ ?_
  intro seen item rest state split holds
  have itemMem : item ∈ rt.fileObjectOrder.visit builder.fileObjectMap := by simp [split]
  have nodup := listed.files_nodup
  rw [split, List.map_append, List.map_cons] at nodup
  have fresh : item.1 ∉ seen.map Prod.fst :=
    fun mem => List.disjoint_of_nodup_append nodup mem List.mem_cons_self
  rcases normalizeFileObject_ok core holds.1 fresh with ⟨next, ran, carried⟩
  have kept := pass _ _ _ _ holds.1 holds.2 ran
  rw [← (fileVisit_ids rt tally itemMem).1] at ran
  rw [List.map_append]
  exact ⟨next, ran, carried, kept⟩

/-- The loop over the directory objects, likewise. -/
theorem dirLoop_ok (rt : Runtime) (core : Core builder s.entries) (tally : Tally builder s.entries)
    {files : List ObjectIdentity} {start : Normalized} (holds : FileObjects s files start)
    (Inv : List (UInt32 × ObjectIdentity) → Normalized → Prop) (initial : Inv [] start)
    (pass : ∀ seen item state next, Inv seen state →
      builder.normalizeDirObject state item = .ok next → Inv (seen ++ [item]) next) :
    ∃ state, (rt.dirObjectOrder.visit builder.dirObjectIds).foldlM builder.normalizeDirObject
        start = .ok state ∧
      DirObjects s files ((rt.dirObjectOrder.visit builder.dirObjectIds).map Prod.fst) state ∧
        Inv (rt.dirObjectOrder.visit builder.dirObjectIds) state := by
  have listed := listed_visits rt tally
  refine foldlM_ok (rt.dirObjectOrder.visit builder.dirObjectIds)
    (fun seen state => DirObjects s files (seen.map Prod.fst) state ∧ Inv seen state)
    ⟨DirObjects.start holds, initial⟩ ?_
  intro seen item rest state split holds
  have itemMem : item ∈ rt.dirObjectOrder.visit builder.dirObjectIds := by simp [split]
  have nodup := listed.dirs_nodup
  rw [split, List.map_append, List.map_cons] at nodup
  have fresh : item.1 ∉ seen.map Prod.fst :=
    fun mem => List.disjoint_of_nodup_append nodup mem List.mem_cons_self
  rcases dirVisit_directory rt tally itemMem with ⟨dir, dirMem, named⟩
  rw [← named] at fresh
  rcases normalizeDirObject_ok core holds.1 dirMem fresh item.2 with ⟨next, ran, carried⟩
  rw [named] at ran carried
  rw [List.map_append]
  exact ⟨next, ran, carried, pass _ _ _ _ holds.2 ran⟩

/-- Phase 1 never aborts, and assigns the objects in the order the maps list them. -/
theorem normalizeObjects_assigned (rt : Runtime) (core : Core builder s.entries)
    (tally : Tally builder s.entries) (short : s.entries.length < 2 ^ 32) :
    ∃ state, builder.normalizeObjects rt = .ok state ∧
      Assigned builder s ((rt.fileObjectOrder.visit builder.fileObjectMap).map Prod.fst)
        ((rt.dirObjectOrder.visit builder.dirObjectIds).map Prod.fst) state := by
  have listed := listed_visits rt tally
  rcases fileLoop_ok rt core tally (fun _ _ => True) trivial (fun _ _ _ _ _ _ _ => trivial) with
    ⟨afterFiles, filesRan, filesHold, _⟩
  rcases dirLoop_ok rt core tally filesHold (fun _ _ => True) trivial (fun _ _ _ _ _ _ => trivial)
    with ⟨afterDirs, dirsRan, dirsHold, _⟩
  have few := listed.objects_le builder
  have assigned := dirsHold.assign builder listed.files_complete (by omega)
  refine ⟨_, ?_, assigned⟩
  rw [normalizeObjects, filesRan, Checked.ok_bind, dirsRan, Checked.ok_bind]
  rfl

/-- Phase 1 never aborts, and its object table groups the files by their keys. -/
theorem normalizeObjects_ok (rt : Runtime) (core : Core builder s.entries)
    (tally : Tally builder s.entries) (short : s.entries.length < 2 ^ 32) :
    ∃ state, builder.normalizeObjects rt = .ok state ∧
      ObjectTable s state.entries state.objects := by
  rcases normalizeObjects_assigned rt core tally short with ⟨state, ran, assigned⟩
  exact ⟨state, ran, assigned.table (listed_visits rt tally) short⟩

end GraphBuilder

end PigTree
