import PigTree.Engine.Renaming
import PigTree.Engine.Verdicts

/-!
# Dense and sparse runs

Two builders, one fed a stream and one fed the stream with its identifiers renamed
by an increasing map, go through it in lockstep: the same answers to the same
records, and graphs that answer alike. The first may resolve its identifiers by
arithmetic where the second looks them up.
-/

namespace PigTree

open Foundation EntryObservation

def GraphBuildError.rename (f : UInt32 → UInt32) : GraphBuildError → GraphBuildError
  | .invalidRoot entryId parentId => .invalidRoot (f entryId) (f parentId)
  | .duplicateEntryId id => .duplicateEntryId (f id)
  | .missingParent entryId parentId => .missingParent (f entryId) (f parentId)
  | .parentNotDirectory entryId parentId => .parentNotDirectory (f entryId) (f parentId)
  | .selfParent id => .selfParent (f id)
  | .unknownStreamParent entryId => .unknownStreamParent (f entryId)
  | .recordAfterTerminal => .recordAfterTerminal
  | .missingTerminal => .missingTerminal
  | .aggregateMismatch field expected actual => .aggregateMismatch field expected actual

/-- The identifiers a record mentions. -/
def ObservationRecord.ids : ObservationRecord → List UInt32
  | .directory seen => [seen.entryId, seen.parentId]
  | .file seen => [seen.entryId, seen.parentId]
  | .special seen => [seen.entryId, seen.parentId]
  | .contentStream seen => [seen.parentEntryId]
  | .coverageGap _ => []
  | .terminal _ => []

/-- The identifiers of a stream, with those every builder knows. -/
def usedIds (records : List ObservationRecord) : List UInt32 :=
  0 :: 1 :: records.flatMap ObservationRecord.ids

theorem usedIds_subset {fewer records : List ObservationRecord} (subset : fewer ⊆ records) :
    usedIds fewer ⊆ usedIds records := by
  intro id idMem
  simp only [usedIds, List.mem_cons, List.mem_flatMap] at idMem ⊢
  rcases idMem with zero | one | ⟨record, recordMem, mentioned⟩
  · exact Or.inl zero
  · exact Or.inr (Or.inl one)
  · exact Or.inr (Or.inr ⟨record, subset recordMem, mentioned⟩)

theorem ids_subset_usedIds {records : List ObservationRecord} {record : ObservationRecord}
    (recordMem : record ∈ records) : record.ids ⊆ usedIds records := by
  intro id idMem
  simp only [usedIds, List.mem_cons, List.mem_flatMap]
  exact Or.inr (Or.inr ⟨record, recordMem, idMem⟩)

theorem entryIds_subset_usedIds (records : List ObservationRecord) :
    (entriesOf records).map entryId ⊆ usedIds records := by
  intro id idMem
  rcases List.mem_map.mp idMem with ⟨entry, entryMem, rfl⟩
  rcases List.mem_filterMap.mp entryMem with ⟨record, recordMem, described⟩
  apply ids_subset_usedIds recordMem
  cases record <;> cases described <;> exact List.mem_cons_self

theorem ObservationRecord.rename_id (record : ObservationRecord) : record.rename id = record := by
  cases record <;> rfl

theorem GraphBuildError.rename_id (err : GraphBuildError) : err.rename id = err := by
  cases err <;> rfl

namespace GraphBuilder

variable {f : UInt32 → UInt32} {target : String} {builder builder' : GraphBuilder}
  {records : List ObservationRecord}

/-- The answer to the renamed record. -/
def renameAnswer (f : UInt32 → UInt32) : Except GraphBuildError Unit → Except GraphBuildError Unit :=
  Except.mapError (GraphBuildError.rename f)

/-! ### One record -/

/-- The answer to a record, given the records accepted before it. -/
def verdict (builder : GraphBuilder) (records : List ObservationRecord)
    (record : ObservationRecord) : Except GraphBuildError Unit :=
  if builder.terminal.isSome then .error .recordAfterTerminal
  else
    match record with
    | .directory seen => entryVerdict (entriesOf records) (.directory seen)
    | .file seen => entryVerdict (entriesOf records) (.file seen)
    | .special seen => entryVerdict (entriesOf records) (.special seen)
    | .contentStream stream =>
        if stream.parentEntryId ∈ (entriesOf records).map entryId then .ok ()
        else .error (.unknownStreamParent stream.parentEntryId)
    | .coverageGap _ => .ok ()
    | .terminal term => (builder.terminalMismatch term).elim (.ok ()) .error

theorem onAccepted_answer {inserted : Ingest} {answer : Except GraphBuildError Unit}
    (next : GraphBuilder → GraphBuilder) (ran : ∃ after, inserted = .ok (answer, after)) :
    ∃ after, onAccepted inserted next = .ok (answer, after) := by
  rcases ran with ⟨after, rfl⟩
  cases answer with
  | ok accepted => exact ⟨next after, rfl⟩
  | error err => exact ⟨after, rfl⟩

/-- A record is answered with its verdict, while numbers are left for a dense builder. -/
theorem Represents.ingestRecord_answer_of_room (represents : Represents target builder records)
    {record : ObservationRecord} (room : ∀ entry, record.entry? = some entry →
      entry.entryId ≠ entry.parentId → builder.isDense = true →
        entry.entryId = UInt32.ofNat (builder.entries.length + 1) →
          (entriesOf records).length + 1 < 2 ^ 32) :
    ∃ next, builder.ingestRecord record = .ok (verdict builder records record, next) := by
  unfold GraphBuilder.ingestRecord verdict
  split
  · exact ⟨_, rfl⟩
  cases record with
  | directory dir =>
      have core := (represents.visiting
        (if dir.parentId = 0 then dir.entryId else dir.parentId)).core
      apply onAccepted_answer
      exact core.validateAndInsertEntry_answer (.directory dir) (room _ rfl)
  | file file =>
      have core := (represents.visiting file.parentId).core
      apply onAccepted_answer
      exact core.validateAndInsertEntry_answer (.file file) (room _ rfl)
  | special special =>
      have core := (represents.visiting special.parentId).core
      apply onAccepted_answer
      exact core.validateAndInsertEntry_answer (.special special) (room _ rfl)
  | contentStream stream =>
      have known := represents.core.storageGetIdx_isSome stream.parentEntryId
      simp only [GraphBuilder.ingestStream]
      cases located : builder.storageGetIdx stream.parentEntryId with
      | none =>
          rw [located] at known
          have absent := of_decide_eq_false known.symm
          simp only [absent, if_false]
          exact ⟨_, rfl⟩
      | some idx =>
          rw [located] at known
          have present := of_decide_eq_true known.symm
          simp only [present, if_true]
          exact ⟨_, rfl⟩
  | coverageGap gap => exact ⟨_, rfl⟩
  | terminal term =>
      simp only [GraphBuilder.ingestTerminal]
      cases builder.terminalMismatch term <;> exact ⟨_, rfl⟩

/-- A record is answered with its verdict. -/
theorem Represents.ingestRecord_answer (represents : Represents target builder records)
    (room : builder.isDense = true → (entriesOf records).length + 1 < 2 ^ 32)
    (record : ObservationRecord) :
    ∃ next, builder.ingestRecord record = .ok (verdict builder records record, next) := by
  apply represents.ingestRecord_answer_of_room
  intro entry _ _ dense _
  exact room dense

/-- The verdict on a renamed entry. -/
theorem entryVerdict_rename {entries : List EntryObservation} {entry : EntryObservation}
    (zero : f 0 = 0) (one : f 1 = 1) {ids : List UInt32} (increasing : IncreasingOn f ids)
    (zeroMem : 0 ∈ ids) (oneMem : 1 ∈ ids) (known : entries.map entryId ⊆ ids)
    (entryMem : entry.entryId ∈ ids) (parentMem : entry.parentId ∈ ids) :
    entryVerdict (entries.map (EntryObservation.rename f)) (entry.rename f) =
      renameAnswer f (entryVerdict entries entry) := by
  have isZero : f entry.parentId = 0 ↔ entry.parentId = 0 := by
    rw [← increasing.inj parentMem zeroMem, zero]
  have isOne : f entry.entryId = 1 ↔ entry.entryId = 1 := by
    rw [← increasing.inj entryMem oneMem, one]
  have duplicate : f entry.entryId ∈ (entries.map (EntryObservation.rename f)).map entryId ↔
      entry.entryId ∈ entries.map entryId := by
    rw [List.map_map]
    simp only [List.mem_map, Function.comp_apply, rename_entryId]
    constructor
    · rintro ⟨other, otherMem, same⟩
      exact ⟨other, otherMem,
        (increasing.inj (known (List.mem_map_of_mem otherMem)) entryMem).mp same⟩
    · rintro ⟨other, otherMem, same⟩
      exact ⟨other, otherMem, congrArg f same⟩
  have lookup : (entries.map (EntryObservation.rename f)).find?
        (fun other => other.entryId = f entry.parentId) =
      (entries.find? (fun other => other.entryId = entry.parentId)).map
        (EntryObservation.rename f) := by
    rw [List.find?_map]
    apply congrArg (Option.map (EntryObservation.rename f))
    apply List.find?_congr
    intro other otherMem
    simp only [Function.comp_apply, rename_entryId,
      increasing.inj (known (List.mem_map_of_mem otherMem)) parentMem]
  simp only [entryVerdict, rename_entryId, rename_parentId, rename_kind,
    increasing.inj entryMem parentMem, List.map_eq_nil_iff, ne_eq, isZero, isOne, duplicate, lookup]
  split
  · rfl
  split
  · split
    · rfl
    split
    · rfl
    · rfl
  split
  · rfl
  split
  · rfl
  cases entries.find? (fun other => other.entryId = entry.parentId) with
  | none => rfl
  | some parent =>
      simp only [Option.map_some, rename_kind]
      split
      · rfl
      · rfl

/-! ### Both builders -/

/-- The totals of two builders fed the same records up to renaming are the same. -/
theorem terminalMismatch_rename (represents : Represents target builder records)
    (represents' : Represents target builder' (records.map (ObservationRecord.rename f)))
    (term : TerminalObservation) :
    builder'.terminalMismatch term = builder.terminalMismatch term := by
  have tally := represents.tally
  have tally' := represents'.tally
  rw [entriesOf_rename] at tally'
  apply terminalMismatch_congr
  · rw [tally.dirCount_eq, tally'.dirCount_eq, List.countP_map]
    simp only [Function.comp_def, rename_kind]
  · rw [tally.fileCount_eq, tally'.fileCount_eq, List.countP_map]
    simp only [Function.comp_def, rename_kind]
  · apply UInt64.toNat_inj.mp
    rw [tally.logical_eq, tally'.logical_eq, List.map_map]
    simp only [Function.comp_def, rename_logicalBytes]
  · apply UInt64.toNat_inj.mp
    rw [tally.allocated_eq, tally'.allocated_eq, List.map_map]
    simp only [Function.comp_def, rename_allocatedBytes]
  · rw [represents.gaps_eq, represents'.gaps_eq, gapsOf_rename]

theorem terminal_rename (represents : Represents target builder records)
    (represents' : Represents target builder' (records.map (ObservationRecord.rename f))) :
    builder'.terminal = builder.terminal := by
  rw [represents.terminal_eq, represents'.terminal_eq, List.getLast?_map]
  cases records.getLast? with
  | none => rfl
  | some record => exact record.rename_terminal? f

/-- Errors about totals mention no identifier. -/
theorem rename_of_terminalMismatch {term : TerminalObservation} {err : GraphBuildError}
    (differs : builder.terminalMismatch term = some err) : err.rename f = err := by
  unfold terminalMismatch at differs
  split at differs
  · cases differs
    rfl
  split at differs
  · cases differs
    rfl
  split at differs
  · cases differs
    rfl
  split at differs
  · cases differs
    rfl
  split at differs
  · cases differs
    rfl
  · cases differs

/-- The verdict on a renamed record is the renamed verdict. -/
theorem verdict_rename (represents : Represents target builder records)
    (represents' : Represents target builder' (records.map (ObservationRecord.rename f)))
    (zero : f 0 = 0) (one : f 1 = 1) {ids : List UInt32} (increasing : IncreasingOn f ids)
    {record : ObservationRecord} (known : usedIds (records ++ [record]) ⊆ ids) :
    verdict builder' (records.map (ObservationRecord.rename f)) (record.rename f) =
      renameAnswer f (verdict builder records record) := by
  have entries : (entriesOf records).map entryId ⊆ ids :=
    fun id idMem => known (usedIds_subset (List.subset_append_left _ _)
      (entryIds_subset_usedIds records idMem))
  have mentioned : record.ids ⊆ ids :=
    fun id idMem => known (ids_subset_usedIds (by simp) idMem)
  have zeroMem : 0 ∈ ids := known List.mem_cons_self
  have oneMem : 1 ∈ ids := known (List.mem_cons_of_mem _ List.mem_cons_self)
  unfold verdict
  rw [terminal_rename represents represents']
  split
  · rfl
  rw [entriesOf_rename]
  cases record with
  | directory seen =>
      show entryVerdict _ ((EntryObservation.directory seen).rename f) = _
      apply entryVerdict_rename zero one increasing zeroMem oneMem entries
      · exact mentioned (by simp [ObservationRecord.ids, EntryObservation.entryId])
      · exact mentioned (by simp [ObservationRecord.ids, EntryObservation.parentId])
  | file seen =>
      show entryVerdict _ ((EntryObservation.file seen).rename f) = _
      apply entryVerdict_rename zero one increasing zeroMem oneMem entries
      · exact mentioned (by simp [ObservationRecord.ids, EntryObservation.entryId])
      · exact mentioned (by simp [ObservationRecord.ids, EntryObservation.parentId])
  | special seen =>
      show entryVerdict _ ((EntryObservation.special seen).rename f) = _
      apply entryVerdict_rename zero one increasing zeroMem oneMem entries
      · exact mentioned (by simp [ObservationRecord.ids, EntryObservation.entryId])
      · exact mentioned (by simp [ObservationRecord.ids, EntryObservation.parentId])
  | contentStream stream =>
      have parentMem : stream.parentEntryId ∈ ids :=
        mentioned (by simp [ObservationRecord.ids])
      have same : f stream.parentEntryId ∈
          ((entriesOf records).map (EntryObservation.rename f)).map entryId ↔
            stream.parentEntryId ∈ (entriesOf records).map entryId := by
        rw [List.map_map]
        simp only [List.mem_map, Function.comp_apply, rename_entryId]
        constructor
        · rintro ⟨other, otherMem, equal⟩
          exact ⟨other, otherMem,
            (increasing.inj (entries (List.mem_map_of_mem otherMem)) parentMem).mp equal⟩
        · rintro ⟨other, otherMem, equal⟩
          exact ⟨other, otherMem, congrArg f equal⟩
      simp only [ObservationRecord.rename, StreamObservation.rename, same]
      split
      · rfl
      · rfl
  | coverageGap gap => rfl
  | terminal term =>
      simp only [ObservationRecord.rename, terminalMismatch_rename represents represents']
      cases differs : builder.terminalMismatch term with
      | none => rfl
      | some err =>
          simp only [Option.elim_some, renameAnswer, Except.mapError,
            rename_of_terminalMismatch differs]

/-- A dense builder that is full has used every identifier but `0`. -/
theorem Core.full (core : Core builder (entriesOf records)) (dense : builder.isDense = true)
    (full : ¬(entriesOf records).length + 1 < 2 ^ 32) (id : UInt32) :
    id = 0 ∨ id ∈ (entriesOf records).map entryId := by
  by_cases isZero : id = 0
  · exact Or.inl isZero
  · right
    have nonzero : id.toNat ≠ 0 := fun same => isZero (UInt32.toNat_inj.mp same)
    have word := id.toNat_lt
    have bound : id.toNat - 1 < (entriesOf records).length := by omega
    refine List.mem_map.mpr ⟨_, List.getElem_mem bound, UInt32.toNat_inj.mp ?_⟩
    rw [core.indexed.dense dense _ _ (List.getElem?_eq_getElem bound)]
    omega

section Lockstep

variable {ids : List UInt32} (zero : f 0 = 0) (one : f 1 = 1) (increasing : IncreasingOn f ids)
  (moves : f ≠ id)

include increasing moves

/-- There is room in a dense builder while some identifier is renamed. -/
theorem Represents.room (represents : Represents target builder records)
    (known : usedIds records ⊆ ids) (dense : builder.isDense = true) :
    (entriesOf records).length + 1 < 2 ^ 32 := by
  by_contra full
  have all : ∀ word, word ∈ ids := by
    intro word
    rcases represents.core.full dense full word with rfl | used
    · exact known List.mem_cons_self
    · exact known (entryIds_subset_usedIds records used)
  apply moves
  apply IncreasingOn.eq_id
  intro left right
  exact increasing left (all left) right (all right)

include zero in
theorem Represents.room_renamed
    (represents : Represents target builder' (records.map (ObservationRecord.rename f)))
    (known : usedIds records ⊆ ids) (dense : builder'.isDense = true) :
    (entriesOf (records.map (ObservationRecord.rename f))).length + 1 < 2 ^ 32 := by
  by_contra full
  apply moves
  apply increasing.eq_id_of_surjective
  intro word
  rcases represents.core.full dense full word with rfl | used
  · exact ⟨0, known List.mem_cons_self, zero⟩
  · rw [entriesOf_rename, List.map_map] at used
    rcases List.mem_map.mp used with ⟨entry, entryMem, rfl⟩
    refine ⟨entry.entryId, ?_, (entry.rename_entryId f).symm⟩
    exact known (entryIds_subset_usedIds records (List.mem_map_of_mem entryMem))

include zero one in
/-- Both builders go through the records in lockstep. -/
theorem ingestAll_lockstep {more : List ObservationRecord}
    (represents : Represents target builder records)
    (represents' : Represents target builder' (records.map (ObservationRecord.rename f)))
    (known : usedIds (records ++ more) ⊆ ids) :
    ∃ answer final final', builder.ingestAll more = .ok (answer, final) ∧
      builder'.ingestAll (more.map (ObservationRecord.rename f)) =
        .ok (renameAnswer f answer, final') := by
  induction more generalizing builder builder' records with
  | nil => exact ⟨.ok (), builder, builder', rfl, rfl⟩
  | cons record more ih =>
      have earlier : usedIds records ⊆ ids :=
        fun id idMem => known (usedIds_subset (List.subset_append_left _ _) idMem)
      have upTo : usedIds (records ++ [record]) ⊆ ids := by
        intro id idMem
        apply known
        apply usedIds_subset _ idMem
        intro other otherMem
        simp only [List.mem_append, List.mem_cons, List.not_mem_nil, or_false] at otherMem ⊢
        rcases otherMem with old | new
        · exact Or.inl old
        · exact Or.inr (Or.inl new)
      rcases represents.ingestRecord_answer (represents.room increasing moves earlier) record with
        ⟨next, ingested⟩
      rcases represents'.ingestRecord_answer
        (represents'.room_renamed zero increasing moves earlier) (record.rename f) with
        ⟨next', ingested'⟩
      rw [verdict_rename represents represents' zero one increasing upTo] at ingested'
      have after := represents.ingestRecord record
      have after' := represents'.ingestRecord (record.rename f)
      rw [ingested] at after
      rw [ingested'] at after'
      rw [List.map_cons, ingestAll, ingestAll, ingested, ingested', Checked.ok_bind,
        Checked.ok_bind]
      generalize verdict builder records record = answer at after after' ⊢
      cases answer with
      | error err => exact ⟨.error err, next, next', rfl, rfl⟩
      | ok accepted =>
          cases after with
          | accepted _ represents =>
              cases after' with
              | accepted _ represents' =>
                  refine ih represents (by simpa using represents') ?_
                  simpa using known

end Lockstep

/-- Feeding records never aborts. -/
theorem Represents.ingestAll (represents : Represents target builder records)
    (more : List ObservationRecord) :
    ∃ answer final, builder.ingestAll more = .ok (answer, final) := by
  induction more generalizing builder records with
  | nil => exact ⟨.ok (), builder, rfl⟩
  | cons record more ih =>
      have after := represents.ingestRecord record
      rw [GraphBuilder.ingestAll]
      cases ran : builder.ingestRecord record with
      | error fault =>
          rw [ran] at after
          cases after
      | ok result =>
          rw [ran] at after
          rcases result with ⟨answer, next⟩
          cases after with
          | rejected err _ represents => exact ⟨.error err, next, rfl⟩
          | accepted _ represents => exact ih represents

/-- A new builder answers a stream and its renaming alike. -/
theorem ingestAll_rename (zero : f 0 = 0) (one : f 1 = 1)
    (increasing : IncreasingOn f (usedIds records)) :
    ∃ answer final final', (GraphBuilder.new target).ingestAll records = .ok (answer, final) ∧
      (GraphBuilder.new target).ingestAll (records.map (ObservationRecord.rename f)) =
        .ok (renameAnswer f answer, final') := by
  have start := Represents.new target
  by_cases moves : f = id
  · subst moves
    have same : records.map (ObservationRecord.rename id) = records := by
      simp only [funext ObservationRecord.rename_id, List.map_id']
    rcases start.ingestAll records with ⟨answer, final, ran⟩
    refine ⟨answer, final, final, ran, ?_⟩
    rw [same, ran]
    cases answer with
    | ok accepted => rfl
    | error err => rw [renameAnswer, Except.mapError, err.rename_id]
  · exact ingestAll_lockstep zero one increasing moves start start (fun _ idMem => idMem)

/-! ### Both graphs -/

/-- Two graphs that answer alike up to the renaming of identifiers. -/
structure RenamedGraph (f : UInt32 → UInt32) (ids : List UInt32) (left right : DirectoryGraph) :
    Prop where
  totalEntries : right.totalEntries = left.totalEntries
  rootTarget : right.rootTarget = left.rootTarget
  rootId : right.rootId = f left.rootId
  logicalBytes : right.logicalBytes = left.logicalBytes
  referencedAllocatedBytes : right.referencedAllocatedBytes = left.referencedAllocatedBytes
  uniqueAllocatedBytes : right.uniqueAllocatedBytes = left.uniqueAllocatedBytes
  knownSubtotalAllocatedBytes :
    right.knownSubtotalAllocatedBytes = left.knownSubtotalAllocatedBytes
  allocatedBytesKnown : right.allocatedBytesKnown = left.allocatedBytesKnown
  indeterminate : right.indeterminateExternalReferenceObjects =
    left.indeterminateExternalReferenceObjects
  terminal : right.terminal = left.terminal
  gaps : right.gaps = left.gaps
  hardLinkObjects : right.hardLinkObjects = left.hardLinkObjects
  entry : ∀ id ∈ ids, right.entry (f id) =
    (left.entry id).map (Option.map (GraphEntry.rename f))
  streamsForEntry : ∀ id ∈ ids, right.streamsForEntry (f id) = left.streamsForEntry id

/-- Two results of a build that agree up to the renaming of identifiers. -/
inductive Corresponds (f : UInt32 → UInt32) (ids : List UInt32) :
    Checked (Except GraphBuildError DirectoryGraph) →
      Checked (Except GraphBuildError DirectoryGraph) → Prop
  | accepted (left right : DirectoryGraph) (renamed : RenamedGraph f ids left right) :
      Corresponds f ids (.ok (.ok left)) (.ok (.ok right))
  | rejected (err : GraphBuildError) :
      Corresponds f ids (.ok (.error err)) (.ok (.error (err.rename f)))
  | aborted (left right : Fault) : Corresponds f ids (.error left) (.error right)

variable {rt rt' : Runtime} {s : Snapshot} {graph graph' : DirectoryGraph}

/-- The fields a graph takes over from its builder. -/
theorem finish_fields (ran : builder.finish rt = .ok (.ok graph)) :
    graph.rootTarget = builder.rootTarget ∧ graph.gaps = builder.gaps ∧
      builder.terminal = some graph.terminal := by
  unfold finish at ran
  split at ran
  · cases ran
  · next term ended =>
      split at ran
      · split at ran
        · cases ran
        · simp only [Except.ok.injEq] at ran
          subst ran
          exact ⟨rfl, rfl, ended⟩
      · rw [Checked.bind_eq_ok] at ran
        rcases ran with ⟨aggregates, _, result⟩
        simp only [Checked.pure_eq_ok, Except.ok.injEq] at result
        subst result
        exact ⟨rfl, rfl, ended⟩

/-- With entries and a terminal record, what is returned is a graph. -/
theorem Reached.finish_graph (reached : Reached target builder records)
    (nonempty : entriesOf records ≠ []) (ended : builder.terminal.isSome)
    {result : Except GraphBuildError DirectoryGraph} (ran : builder.finish rt = .ok result) :
    ∃ graph, result = .ok graph := by
  unfold finish at ran
  split at ran
  · next missing => simp [missing] at ended
  · rw [if_neg (fun none => nonempty (reached.builder_entries_eq_nil_iff.mp none)),
      Checked.bind_eq_ok] at ran
    rcases ran with ⟨aggregates, _, settled⟩
    simp only [Checked.pure_eq_ok, Except.ok.injEq] at settled
    exact ⟨_, settled.symm⟩

/-- The figures an entry shows for everything below it. -/
def figuresOf (compact : CompactEntry) : Option UInt64 × UInt64 × UInt64 × UInt64 :=
  (compact.logicalSize, compact.referencedAllocatedBytes, compact.uniqueAllocatedBytes,
    compact.knownSubtotalAllocatedBytes)

def expectedFigures (s : Snapshot) (entry : EntryObservation) :
    Option UInt64 × UInt64 × UInt64 × UInt64 :=
  (s.shownLogical entry, UInt64.ofNat (clip (s.referencedBytes entry.entryId)),
    UInt64.ofNat (s.uniqueBytes entry.entryId),
    UInt64.ofNat (clip (s.referencedBytes entry.entryId)))

/-- The root of a graph shows the figures of the first entry. -/
theorem Presented.rootFigures_eq (presented : Presented rt s graph) :
    (graph.storage.get graph.rootId).map figuresOf =
      s.entries.head?.map (expectedFigures s) := by
  rw [presented.finished.rootId_eq]
  cases split : s.entries with
  | nil =>
      rw [if_pos rfl, presented.get_eq_none (Or.inl rfl)]
      rfl
  | cons root below =>
      have found : s.entries[0]? = some root := by simp [split]
      have first := s.wellFormed.root_first root (by simp [split])
      rcases presented.finished.delivered 0 root found with ⟨compact, stored, delivered⟩
      have located : graph.storage.get 1 = some compact :=
        (presented.finished.get_iff _ _).mpr
          ⟨by decide, List.mem_of_getElem? stored, delivered.id_eq.trans first.1⟩
      rw [if_neg (by simp), located]
      simp only [Option.map_some, List.head?_cons, figuresOf, expectedFigures,
        presented.logicalSize_eq found stored, presented.referencedAllocatedBytes_eq found stored,
        presented.uniqueAllocatedBytes_eq found stored,
        presented.knownSubtotalAllocatedBytes_eq found stored]

/-- Roots with the same figures make graphs with the same sums. -/
theorem sums_of_rootFigures {left right : DirectoryGraph}
    (same : (left.storage.get left.rootId).map figuresOf =
      (right.storage.get right.rootId).map figuresOf) :
    left.logicalBytes = right.logicalBytes ∧
      left.referencedAllocatedBytes = right.referencedAllocatedBytes ∧
        left.uniqueAllocatedBytes = right.uniqueAllocatedBytes ∧
          left.knownSubtotalAllocatedBytes = right.knownSubtotalAllocatedBytes := by
  unfold DirectoryGraph.logicalBytes DirectoryGraph.referencedAllocatedBytes
    DirectoryGraph.uniqueAllocatedBytes DirectoryGraph.knownSubtotalAllocatedBytes
  cases leftRoot : left.storage.get left.rootId with
  | none =>
      rw [leftRoot, Option.map_none] at same
      rw [Option.map_eq_none_iff.mp same.symm]
      exact ⟨rfl, rfl, rfl, rfl⟩
  | some compact =>
      rw [leftRoot, Option.map_some] at same
      rcases Option.map_eq_some_iff.mp same.symm with ⟨other, rightRoot, figures⟩
      rw [rightRoot]
      simp only [figuresOf, Prod.mk.injEq] at figures
      simp only [Option.bind_some, Option.map_some, Option.getD_some, figures, and_self]

theorem snapshot_renamed (reached : Reached target builder records)
    (reached' : Reached target builder' (records.map (ObservationRecord.rename f)))
    (zero : f 0 = 0) (increasing : IncreasingOn f (usedIds records)) :
    Snapshot.RenamedTo f reached.snapshot reached'.snapshot where
  entries_eq := entriesOf_rename f records
  zero := zero
  increasing := by
    apply increasing.mono
    intro id idMem
    rcases List.mem_cons.mp idMem with rfl | used
    · exact List.mem_cons_self
    · exact entryIds_subset_usedIds records used

section Graphs

variable (reached : Reached target builder records)
  (reached' : Reached target builder' (records.map (ObservationRecord.rename f)))
  (zero : f 0 = 0) (one : f 1 = 1) (increasing : IncreasingOn f (usedIds records))
  (lowercase : rt.toLowercase = rt'.toLowercase)

include reached reached' zero one increasing lowercase

/-- Finished graphs of a stream and its renaming answer alike. -/
theorem renamedGraph (ran : builder.finish rt = .ok (.ok graph))
    (ran' : builder'.finish rt' = .ok (.ok graph')) :
    RenamedGraph f (usedIds records) graph graph' := by
  have renamed := snapshot_renamed reached reached' zero increasing
  have presented := reached.presented ran
  have presented' := reached'.presented ran'
  have fields := finish_fields ran
  have fields' := finish_fields ran'
  have sums : graph'.logicalBytes = graph.logicalBytes ∧
      graph'.referencedAllocatedBytes = graph.referencedAllocatedBytes ∧
        graph'.uniqueAllocatedBytes = graph.uniqueAllocatedBytes ∧
          graph'.knownSubtotalAllocatedBytes = graph.knownSubtotalAllocatedBytes := by
    apply sums_of_rootFigures
    rw [presented.rootFigures_eq, presented'.rootFigures_eq, renamed.entries_eq, List.head?_map]
    cases first : reached.snapshot.entries.head? with
    | none => rfl
    | some entry =>
        have entryMem := List.mem_of_head? first
        have known := List.mem_map_of_mem entryMem (f := entryId)
        simp only [Option.map_some, expectedFigures, rename_entryId,
          renamed.shownLogical_eq entryMem, renamed.referencedBytes_eq known,
          renamed.uniqueBytes_eq known]
  -- an identifier that names no entry names none after the renaming
  have unknown : ∀ id ∈ usedIds records, (id = 0 ∨ id ∉ reached.snapshot.entries.map entryId) →
      f id = 0 ∨ f id ∉ reached'.snapshot.entries.map entryId := by
    rintro id idMem (rfl | absent)
    · exact Or.inl zero
    · right
      intro present
      rw [renamed.entries_eq, List.map_map] at present
      rcases List.mem_map.mp present with ⟨entry, entryMem, same⟩
      rw [Function.comp_apply, rename_entryId] at same
      have entryId_mem := List.mem_map_of_mem entryMem (f := entryId)
      rw [increasing.inj (entryIds_subset_usedIds records entryId_mem) idMem] at same
      exact absent (same ▸ entryId_mem)
  have cases_id : ∀ id, (id = 0 ∨ id ∉ reached.snapshot.entries.map entryId) ∨
      ∃ entry ∈ reached.snapshot.entries, entry.entryId = id ∧ id ≠ 0 ∧ f id ≠ 0 := by
    intro id
    by_cases isZero : id = 0
    · exact Or.inl (Or.inl isZero)
    by_cases known : id ∈ reached.snapshot.entries.map entryId
    · rcases List.mem_map.mp known with ⟨entry, entryMem, rfl⟩
      refine Or.inr ⟨entry, entryMem, rfl, isZero, ?_⟩
      rwa [ne_eq, renamed.eq_zero_iff (Snapshot.entryId_mem_ids entryMem)]
    · exact Or.inl (Or.inr known)
  constructor
  · exact presented'.finished.length_eq.trans
      (renamed.length_eq.trans presented.finished.length_eq.symm)
  · rw [fields.1, fields'.1, reached.represents.rootTarget_eq, reached'.represents.rootTarget_eq]
  · rw [presented'.finished.rootId_eq, presented.finished.rootId_eq, renamed.entries_eq]
    simp only [List.map_eq_nil_iff]
    split
    · exact zero.symm
    · exact one.symm
  · exact sums.1
  · exact sums.2.1
  · exact sums.2.2.1
  · exact sums.2.2.2
  · rw [presented.known_eq, presented'.known_eq, renamed.allocationsKnown_eq]
  · rw [presented.indeterminate_eq, presented'.indeterminate_eq, renamed.indeterminateObjects_eq]
  · have ended := terminal_rename reached.represents reached'.represents
    rw [fields.2.2, fields'.2.2, Option.some.injEq] at ended
    exact ended
  · rw [fields.2.1, fields'.2.1, reached.represents.gaps_eq, reached'.represents.gaps_eq,
      gapsOf_rename]
  · rw [presented.hardLinkObjects_eq, presented'.hardLinkObjects_eq, renamed.hardLinks_eq]
  · intro id idMem
    rcases cases_id id with absent | ⟨entry, entryMem, rfl, nonzero, nonzero'⟩
    · rw [presented.entry_eq_none absent, presented'.entry_eq_none (unknown id idMem absent)]
      rfl
    · have entryMem' : entry.rename f ∈ reached'.snapshot.entries := by
        rw [renamed.entries_eq]
        exact List.mem_map_of_mem entryMem
      rw [← entry.rename_entryId f] at nonzero' ⊢
      rw [presented.entry_eq entryMem nonzero, presented'.entry_eq entryMem' nonzero',
        renamed.present_eq lowercase entryMem]
      rfl
  · intro id idMem
    rcases cases_id id with absent | ⟨entry, entryMem, rfl, nonzero, nonzero'⟩
    · rw [DirectoryGraph.streamsForEntry, DirectoryGraph.streamsForEntry,
        presented.get_eq_none absent, presented'.get_eq_none (unknown id idMem absent)]
    · have entryMem' : entry.rename f ∈ reached'.snapshot.entries := by
        rw [renamed.entries_eq]
        exact List.mem_map_of_mem entryMem
      rw [← entry.rename_entryId f] at nonzero' ⊢
      rw [reached.streamsForEntry_eq ran entryMem nonzero,
        reached'.streamsForEntry_eq ran' entryMem' nonzero', streamsOf_rename]
      apply renamed.streamsFor_eq entryMem
      intro stream streamMem
      have known := reached.represents.pending_known stream streamMem
      exact List.mem_cons_of_mem _ known

/-- Settling a stream and its renaming ends alike. -/
theorem finish_corresponds :
    Corresponds f (usedIds records) (builder.finish rt) (builder'.finish rt') := by
  have renamed := snapshot_renamed reached reached' zero increasing
  have ended := terminal_rename reached.represents reached'.represents
  cases terminal : builder.terminal with
  | none =>
      rw [terminal] at ended
      have missing : builder.finish rt = .ok (.error .missingTerminal) := by simp [finish, terminal]
      have missing' : builder'.finish rt' = .ok (.error .missingTerminal) := by simp [finish, ended]
      rw [missing, missing']
      exact Corresponds.rejected .missingTerminal
  | some term =>
      rw [terminal] at ended
      have empties : entriesOf (records.map (ObservationRecord.rename f)) = [] ↔
          entriesOf records = [] := by
        rw [entriesOf_rename, List.map_eq_nil_iff]
      by_cases none : entriesOf records = []
      · have noEntries := reached.builder_entries_eq_nil_iff.mpr none
        have noEntries' := reached'.builder_entries_eq_nil_iff.mpr (empties.mpr none)
        by_cases finished : term.outcome = .finished
        · have invalid : builder.finish rt = .ok (.error (.invalidRoot 0 0)) := by
            simp [finish, terminal, noEntries, finished]
          have invalid' : builder'.finish rt' = .ok (.error (.invalidRoot (f 0) (f 0))) := by
            simp [finish, ended, noEntries', finished, zero]
          rw [invalid, invalid']
          exact Corresponds.rejected (.invalidRoot 0 0)
        · have ran : builder.finish rt = .ok (.ok (builder.emptyGraph term)) := by
            simp [finish, terminal, noEntries, finished]
          have ran' : builder'.finish rt' = .ok (.ok (builder'.emptyGraph term)) := by
            simp [finish, ended, noEntries', finished]
          have graphs := renamedGraph reached reached' zero one increasing lowercase ran ran'
          rw [ran, ran']
          exact Corresponds.accepted _ _ graphs
      have some : entriesOf (records.map (ObservationRecord.rename f)) ≠ [] :=
        fun empty => none (empties.mp empty)
      have same : (∃ result, builder'.finish rt' = .ok result) ↔
          ∃ result, builder.finish rt = .ok result := by
        have lengths := renamed.length_eq
        simp only [Reached.snapshot_entries] at lengths
        rw [reached.finish_returns_iff rt (by simp [terminal]),
          reached'.finish_returns_iff rt' (by simp [ended]), empties, renamed.affordable_eq, lengths]
      by_cases stops : ∃ result, builder.finish rt = .ok result
      · rcases stops with ⟨result, ran⟩
        rcases same.mpr ⟨result, ran⟩ with ⟨result', ran'⟩
        rcases reached.finish_graph none (by simp [terminal]) ran with ⟨graph, rfl⟩
        rcases reached'.finish_graph some (by simp [ended]) ran' with ⟨graph', rfl⟩
        have graphs := renamedGraph reached reached' zero one increasing lowercase ran ran'
        rw [ran, ran']
        exact Corresponds.accepted graph graph' graphs
      · cases ran : builder.finish rt with
        | ok result => exact absurd ⟨result, ran⟩ stops
        | error left =>
            cases ran' : builder'.finish rt' with
            | ok result => exact absurd (same.mp ⟨result, ran'⟩) stops
            | error right => exact Corresponds.aborted left right

end Graphs

/-- A stream and the stream with its identifiers renamed by an increasing map get the
same answer to every record, and builds that end alike. -/
theorem renaming_irrelevant (zero : f 0 = 0) (one : f 1 = 1)
    (increasing : IncreasingOn f (usedIds records))
    (lowercase : rt.toLowercase = rt'.toLowercase) :
    (∀ count, ∃ answer final final',
      (GraphBuilder.new target).ingestAll (records.take count) = .ok (answer, final) ∧
        (GraphBuilder.new target).ingestAll
          ((records.map (ObservationRecord.rename f)).take count) =
            .ok (answer.mapError (GraphBuildError.rename f), final')) ∧
      Corresponds f (usedIds records) (buildFromReader rt target records)
        (buildFromReader rt' target (records.map (ObservationRecord.rename f))) := by
  constructor
  · intro count
    rw [← List.map_take]
    apply ingestAll_rename zero one
    exact increasing.mono (usedIds_subset (List.take_subset count records))
  · have lockstep : ∃ answer final final',
        (GraphBuilder.new target).ingestAll records = .ok (answer, final) ∧
          (GraphBuilder.new target).ingestAll (records.map (ObservationRecord.rename f)) =
            .ok (renameAnswer f answer, final') := ingestAll_rename zero one increasing
    rcases lockstep with ⟨answer, final, final', fed, fed'⟩
    rw [buildFromReader, buildFromReader, fed, fed', Checked.ok_bind, Checked.ok_bind]
    cases answer with
    | error err => exact Corresponds.rejected err
    | ok accepted =>
        exact finish_corresponds (Reached.of_ingestAll fed) (Reached.of_ingestAll fed') zero one
          increasing lowercase

/-- The identifiers from `2` on, with a gap before each. -/
def Sample.spread (id : UInt32) : UInt32 := if id ≤ 1 then id else 2 * id

theorem renaming_irrelevant_shared :
    (∀ count, ∃ answer final final',
      (GraphBuilder.new "c:").ingestAll (Sample.shared.take count) = .ok (answer, final) ∧
        (GraphBuilder.new "c:").ingestAll
          ((Sample.shared.map (ObservationRecord.rename Sample.spread)).take count) =
            .ok (answer.mapError (GraphBuildError.rename Sample.spread), final')) ∧
      Corresponds Sample.spread (usedIds Sample.shared)
        (buildFromReader Sample.runtime "c:" Sample.shared)
        (buildFromReader Sample.runtime "c:"
          (Sample.shared.map (ObservationRecord.rename Sample.spread))) := by
  have increasing : IncreasingOn Sample.spread (usedIds Sample.shared) := by decide +kernel
  exact renaming_irrelevant (by decide) (by decide) increasing rfl

end GraphBuilder

end PigTree
