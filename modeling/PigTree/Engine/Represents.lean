import PigTree.Engine.Ingest

/-!
# Every reachable builder represents its records

The maps, totals and lists of the builder, as summaries of the accepted records,
and the run lemma: whatever sequence of accepted and rejected records a builder
has been fed, it represents the accepted ones.
-/

namespace PigTree

open Foundation EntryObservation

def ObservationRecord.stream? : ObservationRecord → Option StreamObservation
  | .contentStream seen => some seen
  | _ => none

def ObservationRecord.gap? : ObservationRecord → Option CoverageGapObservation
  | .coverageGap seen => some seen
  | _ => none

def ObservationRecord.terminal? : ObservationRecord → Option TerminalObservation
  | .terminal seen => some seen
  | _ => none

def gapsOf (records : List ObservationRecord) : List CoverageGapObservation :=
  records.filterMap ObservationRecord.gap?

def streamsOf (records : List ObservationRecord) : List StreamObservation :=
  records.filterMap ObservationRecord.stream?

/-- The identifiers of the files with an identity, in order of arrival. -/
def fileIds (entries : List EntryObservation) (identity : ObjectIdentity) : List UInt32 :=
  entries.filterMap
    (fun entry => if entry.fileIdentity = some identity then some entry.entryId else none)

/-- Whether a file's allocation has not been observed. -/
def EntryObservation.allocationMissing (entry : EntryObservation) : Bool :=
  entry.kind = .file && entry.fileAllocated.isNone

namespace GraphBuilder

/-- The builder's maps and totals summarise the entries. -/
structure Tally (builder : GraphBuilder) (entries : List EntryObservation) : Prop where
  fileObjects : ∀ identity, builder.fileObjectMap.lookup identity =
    if fileIds entries identity = [] then none else some (fileIds entries identity)
  dirObjects : ∀ id identity, builder.dirObjectIds.lookup id = some identity ↔
    ∃ dir, EntryObservation.directory dir ∈ entries ∧ dir.entryId = id ∧
      dir.objectId = some identity
  linkCounts : ∀ id link, builder.fileLinkCounts.lookup id = some link ↔
    ∃ file, EntryObservation.file file ∈ entries ∧ file.entryId = id ∧
      file.totalLinkCount = link ∧ link ≠ .notObserved
  dirCount_eq : builder.dirCount = UInt64.ofNat (entries.countP (fun e => e.kind = .directory))
  fileCount_eq : builder.fileCount = UInt64.ofNat (entries.countP (fun e => e.kind = .file))
  specialCount_eq :
    builder.specialCount = UInt64.ofNat (entries.countP (fun e => e.kind = .special))
  logical_eq :
    builder.logicalBytes.toNat = clip (entries.map EntryObservation.logicalBytes).sum
  allocated_eq :
    builder.allocatedBytes.toNat = clip (entries.map EntryObservation.allocatedBytes).sum
  known_eq : builder.allocatedBytesKnown = !entries.any allocationMissing

namespace Tally

variable {builder : GraphBuilder} {entries : List EntryObservation}

theorem new (target : String) : Tally (GraphBuilder.new target) [] where
  fileObjects := by simp [GraphBuilder.new, fileIds]
  dirObjects := by simp [GraphBuilder.new]
  linkCounts := by simp [GraphBuilder.new]
  dirCount_eq := rfl
  fileCount_eq := rfl
  specialCount_eq := rfl
  logical_eq := rfl
  allocated_eq := rfl
  known_eq := rfl

/-- Inserting an entry leaves the maps and totals alone. -/
theorem extended (tally : Tally builder entries) (entry : EntryObservation) (isDense : Bool)
    (idToIdx : IdMap) (firstChild lastChild nextSibling : List UInt32) :
    Tally (builder.extended entry isDense idToIdx firstChild lastChild nextSibling) entries where
  fileObjects := tally.fileObjects
  dirObjects := tally.dirObjects
  linkCounts := tally.linkCounts
  dirCount_eq := tally.dirCount_eq
  fileCount_eq := tally.fileCount_eq
  specialCount_eq := tally.specialCount_eq
  logical_eq := tally.logical_eq
  allocated_eq := tally.allocated_eq
  known_eq := tally.known_eq

theorem fileObjects_append (tally : Tally builder entries) (entry : EntryObservation)
    (anonymous : entry.fileIdentity = none) (identity : ObjectIdentity) :
    builder.fileObjectMap.lookup identity =
      if fileIds (entries ++ [entry]) identity = [] then none
      else some (fileIds (entries ++ [entry]) identity) := by
  have same : fileIds (entries ++ [entry]) identity = fileIds entries identity := by
    simp [fileIds, anonymous]
  rw [same]
  exact tally.fileObjects identity

theorem logical_append (tally : Tally builder entries) (entry : EntryObservation)
    (word : UInt64) (wordEq : word.toNat = entry.logicalBytes) :
    (saturatingAdd builder.logicalBytes word).toNat =
      clip ((entries ++ [entry]).map EntryObservation.logicalBytes).sum := by
  have split : clip entry.logicalBytes = entry.logicalBytes := wordEq ▸ clip_toNat word
  rw [toNat_saturatingAdd, tally.logical_eq, wordEq, ← split, clip_add_clip]
  simp

theorem allocated_append (tally : Tally builder entries) (entry : EntryObservation)
    (word : UInt64) (wordEq : word.toNat = entry.allocatedBytes) :
    (saturatingAdd builder.allocatedBytes word).toNat =
      clip ((entries ++ [entry]).map EntryObservation.allocatedBytes).sum := by
  have split : clip entry.allocatedBytes = entry.allocatedBytes := wordEq ▸ clip_toNat word
  rw [toNat_saturatingAdd, tally.allocated_eq, wordEq, ← split, clip_add_clip]
  simp

theorem recordDirectory (tally : Tally builder entries) {dir : DirectoryObservation}
    (fresh : dir.entryId ∉ entries.map entryId) :
    Tally (recordDirectory dir builder) (entries ++ [.directory dir]) where
  fileObjects := tally.fileObjects_append _ rfl
  dirObjects := by
    intro id identity
    have old : ∀ other, EntryObservation.directory other ∈ entries → other.entryId ≠ dir.entryId :=
      fun other mem same => fresh (List.mem_map.mpr ⟨_, mem, same⟩)
    unfold GraphBuilder.recordDirectory
    cases identified : dir.objectId with
    | none =>
        simp only [List.mem_append, List.mem_singleton, EntryObservation.directory.injEq]
        rw [tally.dirObjects id identity]
        constructor
        · rintro ⟨other, mem, named, stored⟩
          exact ⟨other, Or.inl mem, named, stored⟩
        · rintro ⟨other, mem | rfl, named, stored⟩
          · exact ⟨other, mem, named, stored⟩
          · simp [identified] at stored
    | some oid =>
        simp only [List.mem_append, List.mem_singleton, EntryObservation.directory.injEq]
        by_cases same : id = dir.entryId
        · subst same
          rw [AList.lookup_insert]
          constructor
          · rintro ⟨rfl⟩
            exact ⟨dir, Or.inr rfl, rfl, identified⟩
          · rintro ⟨other, mem | rfl, named, stored⟩
            · exact absurd named (old other mem)
            · rw [← stored, identified]
        · rw [AList.lookup_insert_ne same, tally.dirObjects id identity]
          constructor
          · rintro ⟨other, mem, named, stored⟩
            exact ⟨other, Or.inl mem, named, stored⟩
          · rintro ⟨other, mem | rfl, named, stored⟩
            · exact ⟨other, mem, named, stored⟩
            · exact absurd named.symm same
  linkCounts := by
    intro id link
    rw [show (GraphBuilder.recordDirectory dir builder).fileLinkCounts = builder.fileLinkCounts
      from rfl, tally.linkCounts id link]
    simp
  dirCount_eq := by
    simp [GraphBuilder.recordDirectory, tally.dirCount_eq, kind, List.countP_append]
  fileCount_eq := by
    simp [GraphBuilder.recordDirectory, tally.fileCount_eq, kind, List.countP_append]
  specialCount_eq := by
    simp [GraphBuilder.recordDirectory, tally.specialCount_eq, kind, List.countP_append]
  logical_eq := by
    simp [GraphBuilder.recordDirectory, tally.logical_eq, EntryObservation.logicalBytes]
  allocated_eq := by
    cases observed : dir.allocatedSize with
    | none =>
        simp [GraphBuilder.recordDirectory, observed, tally.allocated_eq,
          EntryObservation.allocatedBytes, selfAllocated, fileAllocated]
    | some alloc =>
        have appended := tally.allocated_append (.directory dir) alloc
          (by simp [EntryObservation.allocatedBytes, selfAllocated, fileAllocated, observed])
        simpa [GraphBuilder.recordDirectory, observed] using appended
  known_eq := by
    simp [GraphBuilder.recordDirectory, tally.known_eq, allocationMissing, kind]

theorem recordSpecial (tally : Tally builder entries) (special : SpecialObservation) :
    Tally (recordSpecial builder) (entries ++ [.special special]) where
  fileObjects := tally.fileObjects_append _ rfl
  dirObjects := by
    intro id identity
    rw [show (GraphBuilder.recordSpecial builder).dirObjectIds = builder.dirObjectIds from rfl,
      tally.dirObjects id identity]
    simp
  linkCounts := by
    intro id link
    rw [show (GraphBuilder.recordSpecial builder).fileLinkCounts = builder.fileLinkCounts
      from rfl, tally.linkCounts id link]
    simp
  dirCount_eq := by
    simp [GraphBuilder.recordSpecial, tally.dirCount_eq, kind, List.countP_append]
  fileCount_eq := by
    simp [GraphBuilder.recordSpecial, tally.fileCount_eq, kind, List.countP_append]
  specialCount_eq := by
    simp [GraphBuilder.recordSpecial, tally.specialCount_eq, kind, List.countP_append]
  logical_eq := by
    simp [GraphBuilder.recordSpecial, tally.logical_eq, EntryObservation.logicalBytes]
  allocated_eq := by
    simp [GraphBuilder.recordSpecial, tally.allocated_eq, EntryObservation.allocatedBytes,
      selfAllocated, fileAllocated]
  known_eq := by
    simp [GraphBuilder.recordSpecial, tally.known_eq, allocationMissing, kind]

theorem fileObjects_file (tally : Tally builder entries) (file : FileObservation)
    (identity : ObjectIdentity) :
    (GraphBuilder.recordFile file builder).fileObjectMap.lookup identity =
      if fileIds (entries ++ [.file file]) identity = [] then none
      else some (fileIds (entries ++ [.file file]) identity) := by
  unfold GraphBuilder.recordFile
  cases identified : file.objectId with
  | none => exact tally.fileObjects_append (.file file) identified identity
  | some oid =>
      by_cases same : identity = oid
      · subst same
        have before : (builder.fileObjectMap.lookup identity).getD [] = fileIds entries identity := by
          rw [tally.fileObjects identity]
          split
          · next none => simp [none]
          · rfl
        have ids : fileIds (entries ++ [.file file]) identity =
            fileIds entries identity ++ [file.entryId] := by
          simp [fileIds, fileIdentity, identified, entryId]
        simp only [lookup_pushAt_self, before, ids]
        simp
      · have ids : fileIds (entries ++ [.file file]) identity = fileIds entries identity := by
          have different : ¬oid = identity := fun equal => same equal.symm
          simp [fileIds, fileIdentity, identified, different]
        rw [ids, ← tally.fileObjects identity]
        exact lookup_pushAt_of_ne builder.fileObjectMap file.entryId same

theorem linkCounts_file (tally : Tally builder entries) {file : FileObservation}
    (fresh : file.entryId ∉ entries.map entryId) (id : UInt32) (link : ValueKnowledge UInt32) :
    (GraphBuilder.recordFile file builder).fileLinkCounts.lookup id = some link ↔
      ∃ other, EntryObservation.file other ∈ entries ++ [.file file] ∧ other.entryId = id ∧
        other.totalLinkCount = link ∧ link ≠ .notObserved := by
  have old : ∀ other, EntryObservation.file other ∈ entries → other.entryId ≠ file.entryId :=
    fun other mem same => fresh (List.mem_map.mpr ⟨_, mem, same⟩)
  simp only [List.mem_append, List.mem_singleton, EntryObservation.file.injEq,
    GraphBuilder.recordFile]
  by_cases same : id = file.entryId
  · subst same
    split
    · next observed =>
        rw [AList.lookup_insert]
        constructor
        · rintro ⟨rfl⟩
          exact ⟨file, Or.inr rfl, rfl, rfl, observed⟩
        · rintro ⟨other, mem | rfl, named, stored, _⟩
          · exact absurd named (old other mem)
          · rw [stored]
    · next unobserved =>
        rw [tally.linkCounts file.entryId link]
        constructor
        · rintro ⟨other, mem, named, _⟩
          exact absurd named (old other mem)
        · rintro ⟨other, mem | rfl, named, stored, isObserved⟩
          · exact absurd named (old other mem)
          · exact absurd (stored ▸ isObserved) unobserved
  · have unchanged : (if file.totalLinkCount ≠ .notObserved then
        builder.fileLinkCounts.insert file.entryId file.totalLinkCount
        else builder.fileLinkCounts).lookup id = builder.fileLinkCounts.lookup id := by
      split
      · rw [AList.lookup_insert_ne same]
      · rfl
    rw [unchanged, tally.linkCounts id link]
    constructor
    · rintro ⟨other, mem, facts⟩
      exact ⟨other, Or.inl mem, facts⟩
    · rintro ⟨other, mem | rfl, named, facts⟩
      · exact ⟨other, mem, named, facts⟩
      · exact absurd named.symm same

theorem recordFile (tally : Tally builder entries) {file : FileObservation}
    (fresh : file.entryId ∉ entries.map entryId) :
    Tally (recordFile file builder) (entries ++ [.file file]) where
  fileObjects := tally.fileObjects_file file
  dirObjects := by
    intro id identity
    rw [show (GraphBuilder.recordFile file builder).dirObjectIds = builder.dirObjectIds from rfl,
      tally.dirObjects id identity]
    simp
  linkCounts := tally.linkCounts_file fresh
  dirCount_eq := by
    simp [GraphBuilder.recordFile, tally.dirCount_eq, kind, List.countP_append]
  fileCount_eq := by
    simp [GraphBuilder.recordFile, tally.fileCount_eq, kind, List.countP_append]
  specialCount_eq := by
    simp [GraphBuilder.recordFile, tally.specialCount_eq, kind, List.countP_append]
  logical_eq := tally.logical_append (.file file) file.logicalSize rfl
  allocated_eq := by
    cases observed : file.allocatedSize with
    | none =>
        simp [GraphBuilder.recordFile, observed, tally.allocated_eq,
          EntryObservation.allocatedBytes, selfAllocated, fileAllocated]
    | some alloc =>
        have appended := tally.allocated_append (.file file) alloc
          (by simp [EntryObservation.allocatedBytes, selfAllocated, fileAllocated, observed])
        simpa [GraphBuilder.recordFile, observed] using appended
  known_eq := by
    cases observed : file.allocatedSize with
    | none =>
        simp [GraphBuilder.recordFile, observed, allocationMissing, kind, fileAllocated]
    | some alloc =>
        simp [GraphBuilder.recordFile, observed, tally.known_eq, allocationMissing, kind,
          fileAllocated]

end Tally

/-! ### The whole invariant -/

/-- The totals a terminal record repeats. -/
structure Reconciled (builder : GraphBuilder) (term : TerminalObservation) : Prop where
  directories : term.totalDirectories = builder.dirCount
  files : term.totalFiles = builder.fileCount
  logical : term.totalLogicalBytes = builder.logicalBytes
  allocated : term.totalAllocatedBytes = builder.allocatedBytes
  gaps : term.coverageGapCount = UInt32.ofNat builder.gaps.length

theorem terminalMismatch_eq_none_iff {builder : GraphBuilder} {term : TerminalObservation} :
    builder.terminalMismatch term = none ↔ Reconciled builder term := by
  unfold terminalMismatch
  constructor
  · intro agrees
    split at agrees
    · cases agrees
    split at agrees
    · cases agrees
    split at agrees
    · cases agrees
    split at agrees
    · cases agrees
    split at agrees
    · cases agrees
    next directories files logical allocated gaps =>
      exact ⟨not_not.mp directories, not_not.mp files, not_not.mp logical, not_not.mp allocated,
        not_not.mp gaps⟩
  · intro same
    simp [same.directories, same.files, same.logical, same.allocated, same.gaps]

/-- The builder has accepted exactly `records`. -/
structure Represents (target : String) (builder : GraphBuilder)
    (records : List ObservationRecord) : Prop where
  core : Core builder (entriesOf records)
  tally : Tally builder (entriesOf records)
  rootTarget_eq : builder.rootTarget = target
  pending_eq : builder.pendingStreams = (streamsOf records).map
    (fun stream => (indexOf (entriesOf records) stream.parentEntryId, streamBreakdown stream))
  pending_known : ∀ stream ∈ streamsOf records,
    stream.parentEntryId ∈ (entriesOf records).map entryId
  objectStreams_eq : builder.objectStreams = ∅
  gaps_eq : builder.gaps = gapsOf records
  terminal_eq : builder.terminal = records.getLast?.bind ObservationRecord.terminal?
  reconciled : ∀ term, builder.terminal = some term → Reconciled builder term

/-- What one record can do to a builder. -/
inductive Ingested (target : String) (records : List ObservationRecord)
    (record : ObservationRecord) : Checked (Except GraphBuildError Unit × GraphBuilder) → Prop
  | rejected (err : GraphBuildError) (next : GraphBuilder)
      (represents : Represents target next records) :
      Ingested target records record (.ok (.error err, next))
  | accepted (next : GraphBuilder) (represents : Represents target next (records ++ [record])) :
      Ingested target records record (.ok (.ok (), next))

namespace Represents

variable {target : String} {builder : GraphBuilder} {records : List ObservationRecord}

theorem new (target : String) : Represents target (GraphBuilder.new target) [] where
  core := Core.new target
  tally := Tally.new target
  rootTarget_eq := rfl
  pending_eq := rfl
  pending_known := by simp [streamsOf]
  objectStreams_eq := rfl
  gaps_eq := rfl
  terminal_eq := rfl
  reconciled := by simp [GraphBuilder.new]

/-- The remembered directory is not part of the invariant. -/
theorem visiting (represents : Represents target builder records) (id : UInt32) :
    Represents target { builder with currentDirId := id } records where
  core := { represents.core with }
  tally := { represents.tally with }
  rootTarget_eq := represents.rootTarget_eq
  pending_eq := represents.pending_eq
  pending_known := represents.pending_known
  objectStreams_eq := represents.objectStreams_eq
  gaps_eq := represents.gaps_eq
  terminal_eq := represents.terminal_eq
  reconciled := fun term settled =>
    { represents.reconciled term settled with }

/-- An accepted entry, once the maps and totals have been brought up to date. -/
theorem push (represents : Represents target builder records) {record : ObservationRecord}
    {entry : EntryObservation} {next : GraphBuilder} (running : builder.terminal = none)
    (described : record.entry? = some entry) (core : Core next (entriesOf records ++ [entry]))
    (tally : Tally next (entriesOf records ++ [entry]))
    (rootTarget_eq : next.rootTarget = builder.rootTarget)
    (pending_eq : next.pendingStreams = builder.pendingStreams)
    (objectStreams_eq : next.objectStreams = builder.objectStreams)
    (gaps_eq : next.gaps = builder.gaps) (terminal_eq : next.terminal = builder.terminal) :
    Represents target next (records ++ [record]) := by
  have entriesEq : entriesOf (records ++ [record]) = entriesOf records ++ [entry] := by
    simp [entriesOf, described]
  have plain : record.stream? = none ∧ record.gap? = none ∧ record.terminal? = none := by
    cases record <;> first
      | exact ⟨rfl, rfl, rfl⟩
      | cases described
  have streamsEq : streamsOf (records ++ [record]) = streamsOf records := by
    simp [streamsOf, plain.1]
  refine {
    core := entriesEq ▸ core
    tally := entriesEq ▸ tally
    rootTarget_eq := rootTarget_eq.trans represents.rootTarget_eq
    pending_eq := ?_
    pending_known := ?_
    objectStreams_eq := objectStreams_eq.trans represents.objectStreams_eq
    gaps_eq := ?_
    terminal_eq := ?_
    reconciled := ?_ }
  · rw [pending_eq, represents.pending_eq, streamsEq, entriesEq]
    apply List.map_congr_left
    intro stream streamMem
    rw [indexOf, indexOf, List.map_append,
      List.idxOf_append_of_mem (represents.pending_known stream streamMem)]
  · rw [streamsEq, entriesEq, List.map_append]
    exact fun stream streamMem =>
      List.mem_append_left _ (represents.pending_known stream streamMem)
  · rw [gaps_eq, represents.gaps_eq]
    simp [gapsOf, plain.2.1]
  · rw [terminal_eq, running]
    simp [plain.2.2]
  · intro term settled
    rw [terminal_eq, running] at settled
    cases settled

/-- A record of an entry, for any bookkeeping that keeps the maps and totals in step. -/
theorem onAccepted_spec (represents : Represents target builder records)
    (record : ObservationRecord) (entry : EntryObservation) (running : builder.terminal = none)
    (described : record.entry? = some entry) (note : GraphBuilder → GraphBuilder)
    (noteCore : ∀ next, Core next (entriesOf records ++ [entry]) →
      Core (note next) (entriesOf records ++ [entry]))
    (noteTally : ∀ next, Tally next (entriesOf records) →
      entry.entryId ∉ (entriesOf records).map entryId →
      Tally (note next) (entriesOf records ++ [entry]))
    (noteFrame : ∀ next, (note next).rootTarget = next.rootTarget ∧
      (note next).pendingStreams = next.pendingStreams ∧
      (note next).objectStreams = next.objectStreams ∧ (note next).gaps = next.gaps ∧
      (note next).terminal = next.terminal) :
    Ingested target records record
      (onAccepted (builder.validateAndInsertEntry entry.entryId entry.parentId entry.compact
        entry.selfAlloc) note) := by
  have inserted := validateAndInsertEntry_spec represents.core entry
  generalize builder.validateAndInsertEntry entry.entryId entry.parentId entry.compact
    entry.selfAlloc = result at inserted
  cases inserted with
  | rejected err isDense idToIdx core unfit =>
      apply Ingested.rejected err
      exact {
        core := core
        tally := { represents.tally with }
        rootTarget_eq := represents.rootTarget_eq
        pending_eq := represents.pending_eq
        pending_known := represents.pending_known
        objectStreams_eq := represents.objectStreams_eq
        gaps_eq := represents.gaps_eq
        terminal_eq := represents.terminal_eq
        reconciled := fun term settled => { represents.reconciled term settled with } }
  | accepted isDense idToIdx firstChild lastChild nextSibling core =>
      apply Ingested.accepted
      have ids := core.wellFormed.nodup_ids
      rw [List.map_append] at ids
      have fresh : entry.entryId ∉ (entriesOf records).map entryId :=
        fun mem => List.disjoint_of_nodup_append ids mem (by simp)
      have tally := represents.tally.extended entry isDense idToIdx firstChild lastChild nextSibling
      have frame := noteFrame
        (builder.extended entry isDense idToIdx firstChild lastChild nextSibling)
      exact represents.push running described (noteCore _ core) (noteTally _ tally fresh)
        frame.1 frame.2.1 frame.2.2.1 frame.2.2.2.1 frame.2.2.2.2

/-- Identifiers of stored entries resolve to their positions, others do not. -/
theorem storageGetIdx_sound (core : Core builder (entriesOf records)) {id : UInt32} {idx : ℕ}
    (found : builder.storageGetIdx id = some idx) :
    id ∈ (entriesOf records).map entryId ∧ idx = indexOf (entriesOf records) id := by
  suffices stored : ∃ entry, (entriesOf records)[idx]? = some entry ∧ entry.entryId = id by
    rcases stored with ⟨entry, at_, rfl⟩
    exact ⟨List.mem_map_of_mem (List.mem_of_getElem? at_), (core.wellFormed.indexOf_eq at_).symm⟩
  unfold storageGetIdx at found
  split at found
  · next dense =>
      split at found
      · cases found
      · next within =>
          simp only [core.length_entries, not_or, not_lt, Option.some.injEq] at within found
          have nonzero : id.toNat ≠ 0 := fun zero => within.1 (UInt32.toNat_inj.mp zero)
          have bound : idx < (entriesOf records).length := by omega
          refine ⟨_, List.getElem?_eq_getElem bound, UInt32.toNat_inj.mp ?_⟩
          rw [core.indexed.dense dense idx _ (List.getElem?_eq_getElem bound)]
          omega
  · next sparse =>
      simp only [Option.map_eq_some_iff] at found
      rcases found with ⟨word, lookedUp, rfl⟩
      have located := core.indexed.sparse (by simpa using sparse)
      exact (located id word).mp lookedUp

theorem ingestStream (represents : Represents target builder records)
    (running : builder.terminal = none) (stream : StreamObservation) :
    Ingested target records (.contentStream stream) (builder.ingestStream stream) := by
  unfold GraphBuilder.ingestStream
  cases found : builder.storageGetIdx stream.parentEntryId with
  | none => exact Ingested.rejected _ _ represents
  | some entryIdx =>
      rcases storageGetIdx_sound represents.core found with ⟨known, rfl⟩
      apply Ingested.accepted
      have entriesEq : entriesOf (records ++ [.contentStream stream]) = entriesOf records := by
        simp [entriesOf, ObservationRecord.entry?]
      have streamsEq : streamsOf (records ++ [.contentStream stream]) =
          streamsOf records ++ [stream] := by
        simp [streamsOf, ObservationRecord.stream?]
      exact {
        core := by
          rw [entriesEq]
          exact { represents.core with }
        tally := by
          rw [entriesEq]
          exact { represents.tally with }
        rootTarget_eq := represents.rootTarget_eq
        pending_eq := by simp [entriesEq, streamsEq, represents.pending_eq]
        pending_known := by
          rw [entriesEq, streamsEq]
          intro other otherMem
          rcases List.mem_append.mp otherMem with old | new
          · exact represents.pending_known other old
          · rw [List.mem_singleton.mp new]
            exact known
        objectStreams_eq := represents.objectStreams_eq
        gaps_eq := by simp [represents.gaps_eq, gapsOf, ObservationRecord.gap?]
        terminal_eq := by simp [running, ObservationRecord.terminal?]
        reconciled := by simp [running] }

theorem ingestGap (represents : Represents target builder records)
    (running : builder.terminal = none) (gap : CoverageGapObservation) :
    Ingested target records (.coverageGap gap) (builder.ingestGap gap) := by
  apply Ingested.accepted
  have entriesEq : entriesOf (records ++ [.coverageGap gap]) = entriesOf records := by
    simp [entriesOf, ObservationRecord.entry?]
  have streamsEq : streamsOf (records ++ [.coverageGap gap]) = streamsOf records := by
    simp [streamsOf, ObservationRecord.stream?]
  exact {
    core := by
      rw [entriesEq]
      exact { represents.core with }
    tally := by
      rw [entriesEq]
      exact { represents.tally with }
    rootTarget_eq := represents.rootTarget_eq
    pending_eq := by simp [entriesEq, streamsEq, represents.pending_eq]
    pending_known := by
      rw [entriesEq, streamsEq]
      exact represents.pending_known
    objectStreams_eq := represents.objectStreams_eq
    gaps_eq := by simp [represents.gaps_eq, gapsOf, ObservationRecord.gap?]
    terminal_eq := by simp [running, ObservationRecord.terminal?]
    reconciled := by simp [running] }

theorem ingestTerminal (represents : Represents target builder records)
    (term : TerminalObservation) :
    Ingested target records (.terminal term) (builder.ingestTerminal term) := by
  unfold GraphBuilder.ingestTerminal
  cases agrees : builder.terminalMismatch term with
  | some err => exact Ingested.rejected _ _ represents
  | none =>
      apply Ingested.accepted
      have same := terminalMismatch_eq_none_iff.mp agrees
      have entriesEq : entriesOf (records ++ [.terminal term]) = entriesOf records := by
        simp [entriesOf, ObservationRecord.entry?]
      have streamsEq : streamsOf (records ++ [.terminal term]) = streamsOf records := by
        simp [streamsOf, ObservationRecord.stream?]
      exact {
        core := by
          rw [entriesEq]
          exact { represents.core with }
        tally := by
          rw [entriesEq]
          exact { represents.tally with }
        rootTarget_eq := represents.rootTarget_eq
        pending_eq := by simp [entriesEq, streamsEq, represents.pending_eq]
        pending_known := by
          rw [entriesEq, streamsEq]
          exact represents.pending_known
        objectStreams_eq := represents.objectStreams_eq
        gaps_eq := by simp [represents.gaps_eq, gapsOf, ObservationRecord.gap?]
        terminal_eq := by simp [ObservationRecord.terminal?]
        reconciled := by
          intro other settled
          simp only [Option.some.injEq] at settled
          subst settled
          exact { same with } }

/-- One record never aborts the builder; it is rejected or represented. -/
theorem ingestRecord (represents : Represents target builder records)
    (record : ObservationRecord) :
    Ingested target records record (builder.ingestRecord record) := by
  cases settled : builder.terminal with
  | some term =>
      unfold GraphBuilder.ingestRecord
      rw [if_pos (by simp [settled])]
      exact Ingested.rejected _ _ represents
  | none =>
      unfold GraphBuilder.ingestRecord
      rw [if_neg (by simp [settled])]
      cases record with
      | directory dir =>
          have visiting :=
            represents.visiting (if dir.parentId = 0 then dir.entryId else dir.parentId)
          refine visiting.onAccepted_spec (.directory dir) (.directory dir) settled rfl (recordDirectory dir) ?_ ?_ ?_
          · intro next core
            exact { core with }
          · intro next tally fresh
            exact tally.recordDirectory fresh
          · intro next
            exact ⟨rfl, rfl, rfl, rfl, rfl⟩
      | file file =>
          have visiting := represents.visiting file.parentId
          refine visiting.onAccepted_spec (.file file) (.file file) settled rfl (recordFile file) ?_ ?_ ?_
          · intro next core
            exact { core with }
          · intro next tally fresh
            exact tally.recordFile fresh
          · intro next
            exact ⟨rfl, rfl, rfl, rfl, rfl⟩
      | special special =>
          have visiting := represents.visiting special.parentId
          refine visiting.onAccepted_spec (.special special) (.special special) settled rfl recordSpecial ?_ ?_ ?_
          · intro next core
            exact { core with }
          · intro next tally _
            exact tally.recordSpecial special
          · intro next
            exact ⟨rfl, rfl, rfl, rfl, rfl⟩
      | contentStream stream => exact represents.ingestStream settled stream
      | coverageGap gap => exact represents.ingestGap settled gap
      | terminal term => exact represents.ingestTerminal term

end Represents

/-! ### Runs -/

/-- A builder for `target` that has accepted `records` in this order, whatever
records it has rejected in between. -/
inductive Reached (target : String) : GraphBuilder → List ObservationRecord → Prop
  | start : Reached target (GraphBuilder.new target) []
  | accept {builder next : GraphBuilder} {records : List ObservationRecord}
      {record : ObservationRecord} (before : Reached target builder records)
      (accepted : builder.ingestRecord record = .ok (.ok (), next)) :
      Reached target next (records ++ [record])
  | reject {builder next : GraphBuilder} {records : List ObservationRecord}
      {record : ObservationRecord} {err : GraphBuildError}
      (before : Reached target builder records)
      (rejected : builder.ingestRecord record = .ok (.error err, next)) :
      Reached target next records

namespace Reached

variable {target : String} {builder : GraphBuilder} {records : List ObservationRecord}

theorem represents (reached : Reached target builder records) :
    Represents target builder records := by
  induction reached with
  | start => exact Represents.new target
  | @accept builder next records record _ accepted ih =>
      have ingested := ih.ingestRecord record
      rw [accepted] at ingested
      cases ingested with
      | accepted _ represents => exact represents
  | @reject builder next records record err _ rejected ih =>
      have ingested := ih.ingestRecord record
      rw [rejected] at ingested
      cases ingested with
      | rejected _ _ represents => exact represents

/-- Feeding a list of records that are all accepted. -/
theorem append_ingestAll (reached : Reached target builder records)
    {more : List ObservationRecord} {final : GraphBuilder}
    (fed : builder.ingestAll more = .ok (.ok (), final)) :
    Reached target final (records ++ more) := by
  induction more generalizing builder records with
  | nil =>
      simp only [ingestAll, Except.ok.injEq, Prod.mk.injEq, true_and] at fed
      subst fed
      simpa using reached
  | cons record more ih =>
      rw [ingestAll, Checked.bind_eq_ok] at fed
      rcases fed with ⟨⟨answer, next⟩, ingested, continued⟩
      cases answer with
      | error err => cases continued
      | ok accepted =>
          have after := ih (reached.accept ingested) continued
          simpa using after

theorem of_ingestAll (fed : (GraphBuilder.new target).ingestAll records = .ok (.ok (), builder)) :
    Reached target builder records := by
  simpa using Reached.start.append_ingestAll fed

/-- The accepted entries, which form a tree. -/
def snapshot (reached : Reached target builder records) : Snapshot where
  entries := entriesOf records
  wellFormed := reached.represents.core.wellFormed

@[simp]
theorem snapshot_entries (reached : Reached target builder records) :
    reached.snapshot.entries = entriesOf records := rfl

end Reached

end GraphBuilder

end PigTree
