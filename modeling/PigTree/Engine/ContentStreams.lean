import PigTree.Engine.Acceptance
import PigTree.Engine.Pages

/-!
# Content streams

Streams never change what a graph says about its entries: a stream without them is
accepted as well, and its graph answers alike. They are attributed to the object
behind their parent entry, so every alias of an object shows the same list.
-/

namespace PigTree

open Foundation EntryObservation

namespace GraphBuilder

variable {rt rt' : Runtime} {builder builder' : GraphBuilder} {target : String}
  {records records' : List ObservationRecord} {graph graph' : DirectoryGraph}

/-! ### Graphs of the same entries -/

/-- Two graphs that say the same about every entry and as a whole. -/
structure SameAccounting (left right : DirectoryGraph) : Prop where
  totalEntries : left.totalEntries = right.totalEntries
  rootTarget : left.rootTarget = right.rootTarget
  rootId : left.rootId = right.rootId
  logicalBytes : left.logicalBytes = right.logicalBytes
  referencedAllocatedBytes : left.referencedAllocatedBytes = right.referencedAllocatedBytes
  uniqueAllocatedBytes : left.uniqueAllocatedBytes = right.uniqueAllocatedBytes
  knownSubtotalAllocatedBytes :
    left.knownSubtotalAllocatedBytes = right.knownSubtotalAllocatedBytes
  allocatedBytesKnown : left.allocatedBytesKnown = right.allocatedBytesKnown
  indeterminate : left.indeterminateExternalReferenceObjects =
    right.indeterminateExternalReferenceObjects
  terminal : left.terminal = right.terminal
  gaps : left.gaps = right.gaps
  hardLinkObjects : left.hardLinkObjects = right.hardLinkObjects
  entry : ∀ id, left.entry id = right.entry id

theorem snapshot_eq (reached : Reached target builder records)
    (reached' : Reached target builder' records') (entries : entriesOf records = entriesOf records') :
    reached.snapshot = reached'.snapshot :=
  Snapshot.eq_of_entries entries

section SameEntries

variable (reached : Reached target builder records) (reached' : Reached target builder' records')
  (entries : entriesOf records = entriesOf records') (ended : builder.terminal = builder'.terminal)

include reached reached' entries ended

/-- Graphs of the same entries, gaps and terminal record differ at most in their streams. -/
theorem sameAccounting (gaps : gapsOf records = gapsOf records')
    (lowercase : rt.toLowercase = rt'.toLowercase) (ran : builder.finish rt = .ok (.ok graph))
    (ran' : builder'.finish rt' = .ok (.ok graph')) : SameAccounting graph graph' := by
  have presented := reached.presented ran
  have presented' := reached'.presented ran'
  have fields := finish_fields ran
  have fields' := finish_fields ran'
  have same := snapshot_eq reached reached' entries
  rw [← same] at presented'
  have sums := sums_of_rootFigures (presented.rootFigures_eq.trans presented'.rootFigures_eq.symm)
  constructor
  · exact presented.finished.length_eq.trans presented'.finished.length_eq.symm
  · rw [fields.1, fields'.1, reached.represents.rootTarget_eq, reached'.represents.rootTarget_eq]
  · rw [presented.finished.rootId_eq, presented'.finished.rootId_eq]
  · exact sums.1
  · exact sums.2.1
  · exact sums.2.2.1
  · exact sums.2.2.2
  · rw [presented.known_eq, presented'.known_eq]
  · rw [presented.indeterminate_eq, presented'.indeterminate_eq]
  · rw [fields.2.2, fields'.2.2, Option.some.injEq] at ended
    exact ended
  · rw [fields.2.1, fields'.2.1, reached.represents.gaps_eq, reached'.represents.gaps_eq, gaps]
  · rw [presented.hardLinkObjects_eq, presented'.hardLinkObjects_eq]
  · intro id
    by_cases known : id ≠ 0 ∧ id ∈ reached.snapshot.entries.map entryId
    · rcases List.mem_map.mp known.2 with ⟨entry, entryMem, rfl⟩
      have keys : ∀ child, reached.snapshot.sortKey rt child = reached.snapshot.sortKey rt' child := by
        intro child
        rw [Snapshot.sortKey, Snapshot.sortKey, lowercase]
      rw [presented.entry_eq entryMem known.1, presented'.entry_eq entryMem known.1,
        Snapshot.present, Snapshot.present, Snapshot.orderedChildren, Snapshot.orderedChildren]
      simp only [keys]
    · have absent : id = 0 ∨ id ∉ reached.snapshot.entries.map entryId := by
        rcases not_and_or.mp known with zero | unknown
        · exact Or.inl (not_not.mp zero)
        · exact Or.inr unknown
      rw [presented.entry_eq_none absent, presented'.entry_eq_none absent]

/-- The other builder delivers a graph as well. -/
theorem delivers_of_sameEntries (rt' : Runtime) (ran : builder.finish rt = .ok (.ok graph)) :
    ∃ graph', builder'.finish rt' = .ok (.ok graph') := by
  have terminal := (finish_fields ran).2.2
  have nonempty : entriesOf records = [] → graph.terminal.outcome ≠ .finished := by
    intro none finished
    have noEntries := reached.builder_entries_eq_nil_iff.mpr none
    simp [finish, terminal, noEntries, finished] at ran
  have enough := (reached.delivers_iff rt terminal nonempty).mp ⟨graph, ran, rfl⟩
  have ended' : builder'.terminal = some graph.terminal := ended.symm.trans terminal
  rw [entries] at nonempty
  rw [entries, snapshot_eq reached reached' entries] at enough
  rcases (reached'.delivers_iff rt' ended' nonempty).mpr enough with ⟨graph', delivered, _⟩
  exact ⟨graph', delivered⟩

end SameEntries

/-! ### A stream without its content streams -/

def isContentStream (record : ObservationRecord) : Bool := record.stream?.isSome

/-- The records apart from the content streams. -/
def withoutStreams (records : List ObservationRecord) : List ObservationRecord :=
  records.filter (fun record => !isContentStream record)

theorem entriesOf_withoutStreams (records : List ObservationRecord) :
    entriesOf (withoutStreams records) = entriesOf records := by
  rw [entriesOf, withoutStreams, List.filterMap_filter]
  apply List.filterMap_congr
  intro record _
  cases record <;> rfl

theorem gapsOf_withoutStreams (records : List ObservationRecord) :
    gapsOf (withoutStreams records) = gapsOf records := by
  rw [gapsOf, withoutStreams, List.filterMap_filter]
  apply List.filterMap_congr
  intro record _
  cases record <;> rfl

/-- After the terminal record nothing more is accepted. -/
theorem ingestAll_settled {before after : GraphBuilder} (settled : before.terminal ≠ none)
    (fed : before.ingestAll records = .ok (.ok (), after)) : records = [] ∧ after = before := by
  cases records with
  | nil =>
      cases fed
      exact ⟨rfl, rfl⟩
  | cons record records =>
      unfold ingestAll ingestRecord at fed
      rw [if_pos (Option.isSome_iff_ne_none.mpr settled)] at fed
      cases fed

/-- Records after which the builder still waits for its terminal record contain none. -/
theorem no_terminal {before after : GraphBuilder}
    (fed : before.ingestAll records = .ok (.ok (), after)) (unsettled : after.terminal = none) :
    ∀ record ∈ records, record.terminal? = none := by
  induction records generalizing before with
  | nil => simp
  | cons record records ih =>
      rw [ingestAll, Checked.bind_eq_ok] at fed
      rcases fed with ⟨⟨answer, next⟩, ran, rest⟩
      cases answer with
      | error err => cases rest
      | ok accepted =>
          intro other otherMem
          rcases List.mem_cons.mp otherMem with rfl | later
          · cases other with
            | terminal term =>
                have settled : next.terminal ≠ none := by
                  unfold ingestRecord at ran
                  split at ran
                  · cases ran
                  · dsimp only [ingestTerminal] at ran
                    split at ran
                    · cases ran
                    · cases ran
                      simp
                rw [(ingestAll_settled settled rest).2] at unsettled
                exact absurd unsettled settled
            | directory dir => rfl
            | file file => rfl
            | special special => rfl
            | contentStream stream => rfl
            | coverageGap gap => rfl
          · exact ih rest other later

/-- An accepted stream is accepted up to its last record. -/
theorem ingestAll_concat {before after : GraphBuilder} {last : ObservationRecord}
    (fed : before.ingestAll (records ++ [last]) = .ok (.ok (), after)) :
    ∃ middle, before.ingestAll records = .ok (.ok (), middle) ∧
      middle.ingestRecord last = .ok (.ok (), after) := by
  induction records generalizing before with
  | nil =>
      rw [List.nil_append, ingestAll, Checked.bind_eq_ok] at fed
      rcases fed with ⟨⟨answer, next⟩, ran, rest⟩
      cases answer with
      | error err => cases rest
      | ok accepted =>
          cases rest
          exact ⟨before, rfl, ran⟩
  | cons record records ih =>
      rw [List.cons_append, ingestAll, Checked.bind_eq_ok] at fed
      rcases fed with ⟨⟨answer, next⟩, ran, rest⟩
      cases answer with
      | error err => cases rest
      | ok accepted =>
          rcases ih rest with ⟨middle, front, ended⟩
          refine ⟨middle, ?_, ended⟩
          rw [ingestAll, ran]
          exact front

/-- Builders that represent the same entries and gaps expect the same terminal record. -/
theorem reconciled_of_sameEntries (represents : Represents target builder records)
    (represents' : Represents target builder' records')
    (entries : entriesOf records = entriesOf records') (gaps : gapsOf records = gapsOf records')
    {term : TerminalObservation} (reconciled : Reconciled builder term) :
    Reconciled builder' term := by
  have tally := represents.tally
  have tally' := represents'.tally
  rw [← entries] at tally'
  constructor
  · rw [reconciled.directories, tally.dirCount_eq, tally'.dirCount_eq]
  · rw [reconciled.files, tally.fileCount_eq, tally'.fileCount_eq]
  · rw [reconciled.logical]
    apply UInt64.toNat_inj.mp
    rw [tally.logical_eq, tally'.logical_eq]
  · rw [reconciled.allocated]
    apply UInt64.toNat_inj.mp
    rw [tally.allocated_eq, tally'.allocated_eq]
  · rw [reconciled.gaps, represents.gaps_eq, represents'.gaps_eq, gaps]

/-- The accepted stream without its content streams is accepted. -/
theorem ingestAll_withoutStreams
    (fed : (GraphBuilder.new target).ingestAll records = .ok (.ok (), builder))
    (ran : builder.finish rt = .ok (.ok graph)) :
    ∃ builder', (GraphBuilder.new target).ingestAll (withoutStreams records) =
      .ok (.ok (), builder') ∧ builder.terminal = builder'.terminal := by
  have reached := Reached.of_ingestAll fed
  have short : (entriesOf records).length < 2 ^ 32 := (reached.presented ran).finished.short
  have terminal := (finish_fields ran).2.2
  have carried := reached.represents.terminal_eq
  rw [terminal] at carried
  rcases List.eq_nil_or_concat records with rfl | ⟨front, last, rfl⟩
  · cases carried
  rw [List.concat_eq_append] at fed short carried ⊢
  rw [List.getLast?_concat, Option.bind_some] at carried
  obtain ⟨term, rfl⟩ : ∃ term, last = .terminal term := by
    cases last <;> first
      | exact ⟨_, rfl⟩
      | cases carried
  rcases ingestAll_concat fed with ⟨middle, fedFront, ended⟩
  have unsettled : middle.terminal = none := by
    unfold ingestRecord at ended
    split at ended
    · cases ended
    · next waiting => simpa using waiting
  have reachedFront := Reached.of_ingestAll fedFront
  have reconciled := (ingestTerminal_iff unsettled term).mp ⟨builder, ended⟩
  have sameEntries : entriesOf (front ++ [.terminal term]) = entriesOf front := by
    rw [entriesOf_concat]
    exact List.append_nil _
  have plain : ∀ record ∈ withoutStreams front, IsPlain record := by
    intro record recordMem
    rcases List.mem_filter.mp recordMem with ⟨frontMem, notStream⟩
    refine ⟨?_, no_terminal fedFront unsettled record frontMem⟩
    simpa [isContentStream] using notStream
  have wellFormed : WellFormed (entriesOf ([] ++ withoutStreams front)) := by
    rw [List.nil_append, entriesOf_withoutStreams]
    exact reachedFront.represents.core.wellFormed
  have few : (entriesOf ([] ++ withoutStreams front)).length < 2 ^ 32 := by
    rw [List.nil_append, entriesOf_withoutStreams, ← sameEntries]
    exact short
  rcases (Represents.new target).ingestAll_plain rfl plain wellFormed few with
    ⟨middle', fedFront', represents', unsettled'⟩
  rw [List.nil_append] at represents'
  have reconciled' := reconciled_of_sameEntries reachedFront.represents represents'
    (entriesOf_withoutStreams front).symm (gapsOf_withoutStreams front).symm reconciled
  rcases (ingestAll_terminal_iff unsettled' fedFront' term).mpr reconciled' with ⟨final, fed'⟩
  have split : withoutStreams (front ++ [.terminal term]) =
      withoutStreams front ++ [.terminal term] := List.filter_append ..
  have last' := (Reached.of_ingestAll fed').represents.terminal_eq
  rw [List.getLast?_concat, Option.bind_some] at last'
  exact ⟨final, split ▸ fed', terminal.trans (carried.trans last'.symm)⟩

/-! ### Attribution -/

/-- The streams whose parent entry has the object of an entry, in order of arrival. -/
def ownStreams (graph : DirectoryGraph) (streams : List StreamObservation)
    (compact : CompactEntry) : List StreamBreakdown :=
  (streams.filter (fun stream => graph.storage.entries.any (fun parent =>
    parent.id = stream.parentEntryId ∧ parent.objectIndex = compact.objectIndex))).map
      streamBreakdown

/-- The streams of an object, by the entries that share it. -/
theorem Reached.ownStreams_eq (reached : Reached target builder records)
    (ran : builder.finish rt = .ok (.ok graph)) {idx : ℕ} {entry : EntryObservation}
    {compact : CompactEntry} (found : (entriesOf records)[idx]? = some entry)
    (stored : graph.storage.entries[idx]? = some compact)
    (used : compact.objectIndex ≠ noObject) :
    ownStreams graph (streamsOf records) compact =
      reached.snapshot.streamsFor (streamsOf records) entry := by
  have presented := reached.presented ran
  have snapshotFound : reached.snapshot.entries[idx]? = some entry := found
  have absent := presented.unrecorded idx entry compact snapshotFound stored
  have owned : (reached.snapshot.objectOf entry).isSome = true := by
    rw [Option.isSome_iff_ne_none]
    exact fun none => used (absent.mpr none)
  rw [ownStreams, Snapshot.streamsFor, if_pos owned]
  apply congrArg (List.map streamBreakdown)
  apply List.filter_congr
  intro stream streamMem
  rcases List.mem_map.mp (reached.represents.pending_known stream streamMem) with
    ⟨parent, parentMem, named⟩
  rcases List.mem_iff_getElem?.mp parentMem with ⟨position, parentFound⟩
  have parentAt : reached.snapshot.entries[position]? = some parent := parentFound
  rcases presented.finished.delivered position parent parentAt with
    ⟨parentCompact, parentStored, delivered⟩
  have lookedUp : reached.snapshot.find stream.parentEntryId = some parent :=
    Snapshot.find_eq_some_iff.mpr ⟨parentMem, named⟩
  rw [lookedUp, Option.any_some]
  apply Bool.eq_iff_iff.mpr
  rw [Snapshot.sameObject_iff snapshotFound parentAt, List.any_eq_true]
  have shared : parentCompact.objectIndex = compact.objectIndex ↔
      holderOf idx entry = holderOf position parent := by
    constructor
    · intro same
      have parentUsed : parentCompact.objectIndex ≠ noObject := same ▸ used
      exact (presented.held idx position entry parent compact parentCompact snapshotFound parentAt
        stored parentStored used parentUsed).mp same.symm
    · intro holder
      have parentUsed : parentCompact.objectIndex ≠ noObject := by
        intro none
        have owner := Snapshot.objectOf_isSome_of_holder snapshotFound parentAt holder owned
        rw [(presented.unrecorded position parent parentCompact parentAt parentStored).mp none]
          at owner
        cases owner
      exact ((presented.held idx position entry parent compact parentCompact snapshotFound parentAt
        stored parentStored used parentUsed).mpr holder).symm
  rw [← shared]
  constructor
  · rintro ⟨other, otherMem, both⟩
    have facts := of_decide_eq_true both
    rcases presented.finished.found otherMem with ⟨otherIdx, otherEntry, otherStored, otherFound,
      otherDelivered⟩
    have sameEntry : otherEntry = parent := by
      apply reached.snapshot.wellFormed.eq_of_entryId (List.mem_of_getElem? otherFound) parentMem
      rw [← otherDelivered.id_eq, facts.1, named]
    subst sameEntry
    have samePlace := (reached.snapshot.wellFormed.indexOf_eq otherFound).symm.trans
      (reached.snapshot.wellFormed.indexOf_eq parentAt)
    rw [samePlace, parentStored, Option.some.injEq] at otherStored
    rw [otherStored]
    exact facts.2
  · intro same
    exact ⟨parentCompact, List.mem_of_getElem? parentStored,
      decide_eq_true ⟨delivered.id_eq.trans named, same⟩⟩

/-- Every entry with an object shows the streams of the object, unless it has the
identifier `0`, which shows none. -/
theorem Reached.attributes_iff (reached : Reached target builder records)
    (ran : builder.finish rt = .ok (.ok graph)) :
    (∀ compact ∈ graph.storage.entries, compact.objectIndex ≠ noObject →
        graph.streamsForEntry compact.id = ownStreams graph (streamsOf records) compact) ↔
      ∀ entry ∈ entriesOf records, entry.entryId = 0 →
        reached.snapshot.streamsFor (streamsOf records) entry = [] := by
  have presented := reached.presented ran
  have unlisted : graph.streamsForEntry 0 = [] := by
    rw [DirectoryGraph.streamsForEntry, presented.get_eq_none (Or.inl rfl)]
  constructor
  · intro attributed entry entryMem zero
    rcases List.mem_iff_getElem?.mp entryMem with ⟨idx, found⟩
    rcases presented.finished.delivered idx entry found with ⟨compact, stored, delivered⟩
    by_cases used : compact.objectIndex ≠ noObject
    · rw [← reached.ownStreams_eq ran found stored used,
        ← attributed compact (List.mem_of_getElem? stored) used, delivered.id_eq, zero, unlisted]
    · have absent := (presented.unrecorded idx entry compact found stored).mp (not_not.mp used)
      rw [Snapshot.streamsFor, absent]
      rfl
  · intro silent compact compactMem used
    rcases presented.finished.found compactMem with ⟨idx, entry, stored, found, delivered⟩
    have entryMem : entry ∈ entriesOf records := List.mem_of_getElem? found
    rw [reached.ownStreams_eq ran found stored used, delivered.id_eq]
    by_cases zero : entry.entryId = 0
    · rw [zero, unlisted, silent entry entryMem zero]
    · exact reached.streamsForEntry_eq ran entryMem zero

/-- Content streams never change the accounting, and every alias of an object shows all of
its streams, exactly when no entry with the identifier `0` has an object with streams. -/
theorem contentStreams_neutral_iff
    (fed : (GraphBuilder.new target).ingestAll records = .ok (.ok (), builder))
    (ran : builder.finish rt = .ok (.ok graph)) (lowercase : rt.toLowercase = rt'.toLowercase) :
    ((∃ builder' graph', (GraphBuilder.new target).ingestAll (withoutStreams records) =
          .ok (.ok (), builder') ∧ builder'.finish rt' = .ok (.ok graph') ∧
            SameAccounting graph graph') ∧
        ∀ compact ∈ graph.storage.entries, compact.objectIndex ≠ noObject →
          graph.streamsForEntry compact.id = ownStreams graph (streamsOf records) compact) ↔
      ∀ entry ∈ entriesOf records, entry.entryId = 0 →
        (Reached.of_ingestAll fed).snapshot.streamsFor (streamsOf records) entry = [] := by
  have reached := Reached.of_ingestAll fed
  rw [← reached.attributes_iff ran]
  apply and_iff_right
  rcases ingestAll_withoutStreams fed ran with ⟨builder', fed', ended⟩
  have reached' := Reached.of_ingestAll fed'
  have entries := (entriesOf_withoutStreams records).symm
  have gaps := (gapsOf_withoutStreams records).symm
  rcases delivers_of_sameEntries reached reached' entries ended rt' ran with ⟨graph', ran'⟩
  exact ⟨builder', graph', fed', ran',
    sameAccounting reached reached' entries ended gaps lowercase ran ran'⟩

/-- Two names of a file, one of them with the identifier `0`, and a stream of the other. -/
def Sample.zeroAlias : List ObservationRecord := [
  Sample.directory 1 0 "c:",
  Sample.file 2 1 "one" 5 8 (some (Sample.objectIdentity 1)),
  Sample.file 0 1 "two" 5 8 (some (Sample.objectIdentity 1)),
  .contentStream {
    parentEntryId := 2, name := ":zone", logicalSize := 3, allocatedSize := none },
  .terminal (Sample.terminal 1 2 10 16)]

def Sample.zeroName : EntryObservation := .file {
  entryId := 0, parentId := 1, name := "two", logicalSize := 5, allocatedSize := some 8
  fileAttributes := 32, reparseTag := 0, creationTimeUtcMs := 0, lastWriteTimeUtcMs := 0
  lastAccessTimeUtcMs := 0, objectId := some (Sample.objectIdentity 1)
  totalLinkCount := .notObserved }

/-- A stream that is built is accepted record by record. -/
theorem exists_fed_of_isBuilt (built : isBuilt (buildFromReader rt target records) = true) :
    ∃ builder graph, (GraphBuilder.new target).ingestAll records = .ok (.ok (), builder) ∧
      builder.finish rt = .ok (.ok graph) := by
  unfold isBuilt at built
  split at built
  · next graph ran =>
      rw [buildFromReader, Checked.bind_eq_ok] at ran
      rcases ran with ⟨⟨answer, builder⟩, fed, settled⟩
      cases answer with
      | error err => cases settled
      | ok accepted => exact ⟨builder, graph, fed, settled⟩
  · cases built

theorem contentStreams_neutral_iff_shared : ∃ builder graph,
    ∃ fed : (GraphBuilder.new "c:").ingestAll Sample.shared = .ok (.ok (), builder),
      builder.finish Sample.runtime = .ok (.ok graph) ∧
        (((∃ builder' graph', (GraphBuilder.new "c:").ingestAll (withoutStreams Sample.shared) =
              .ok (.ok (), builder') ∧ builder'.finish Sample.runtime = .ok (.ok graph') ∧
                SameAccounting graph graph') ∧
            ∀ compact ∈ graph.storage.entries, compact.objectIndex ≠ noObject →
              graph.streamsForEntry compact.id =
                ownStreams graph (streamsOf Sample.shared) compact) ↔
          ∀ entry ∈ entriesOf Sample.shared, entry.entryId = 0 →
            (Reached.of_ingestAll fed).snapshot.streamsFor (streamsOf Sample.shared) entry =
              []) := by
  rcases exists_fed_of_isBuilt Sample.isBuilt_shared with ⟨builder, graph, fed, ran⟩
  exact ⟨builder, graph, fed, ran, contentStreams_neutral_iff fed ran rfl⟩

/-- The name with the identifier `0` shows no stream of the file it shares. -/
theorem not_neutral_zeroAlias : ∃ builder graph,
    (GraphBuilder.new "c:").ingestAll Sample.zeroAlias = .ok (.ok (), builder) ∧
      builder.finish Sample.runtime = .ok (.ok graph) ∧
        ∃ compact ∈ graph.storage.entries, compact.objectIndex ≠ noObject ∧
          graph.streamsForEntry compact.id ≠
            ownStreams graph (streamsOf Sample.zeroAlias) compact := by
  have built : isBuilt (buildFromReader Sample.runtime "c:" Sample.zeroAlias) = true := by
    decide +kernel
  rcases exists_fed_of_isBuilt built with ⟨builder, graph, fed, ran⟩
  refine ⟨builder, graph, fed, ran, ?_⟩
  by_contra alike
  have reached := Reached.of_ingestAll fed
  have silent := (reached.attributes_iff ran).mp (by
    intro compact compactMem used
    by_contra differ
    exact alike ⟨compact, compactMem, used, differ⟩)
  have found : Sample.zeroName ∈ entriesOf Sample.zeroAlias := by decide
  have empty := silent _ found rfl
  have owned : (reached.snapshot.objectOf Sample.zeroName).isSome = true := rfl
  rw [Snapshot.streamsFor, if_pos owned, List.map_eq_nil_iff, List.filter_eq_nil_iff] at empty
  exact empty { parentEntryId := 2, name := ":zone", logicalSize := 3, allocatedSize := none }
    (by decide) rfl

end GraphBuilder

end PigTree
